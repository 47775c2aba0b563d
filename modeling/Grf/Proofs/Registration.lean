import Grf.Compilation.Validation
import Grf.Proofs.Resolution
import Mathlib.Data.List.Induction
import Mathlib.Logic.Relation

namespace Grf

/-- The template contains a usage of the name. -/
def Template.Uses (t : Template) (name : String) : Prop :=
  ∃ id args label position, .use id args label position ∈ t.sprites ∧ id.name = name

namespace TemplateLibrary

variable {library larger after : TemplateLibrary} {t : Template} {contents : Resolved}
  {a b name : String}

/-- All that is found in `library` is found in `larger`, under the same name. -/
def Grows (library larger : TemplateLibrary) : Prop :=
  ∀ name entry, library.find? name = some entry → larger.find? name = some entry

theorem Grows.trans (first : library.Grows larger) (second : larger.Grows after) :
    library.Grows after :=
  fun name entry found => second name entry (first name entry found)

theorem resolveSprite_mono (grows : library.Grows larger) {s : Sprite} {part : Resolved}
    (run : library.resolveSprite s = .ok part) : larger.resolveSprite s = .ok part := by
  cases s with
  | real labels params position => exact run
  | recolour labels mapping position => exact run
  | use template args label position =>
    simp only [resolveSprite] at run ⊢
    cases found : library.find? template.name with
    | none =>
      rw [found] at run
      cases run
    | some entry =>
      rw [found] at run
      rw [grows _ _ found]
      exact run
  | foreign source position => exact run

theorem resolveAfter_mono (grows : library.Grows larger) {sprites : List Sprite}
    {done r : Resolved} (run : library.resolveAfter done sprites = .ok r) :
    larger.resolveAfter done sprites = .ok r := by
  induction sprites generalizing done with
  | nil => exact run
  | cons s rest ih =>
    simp only [resolveAfter] at run ⊢
    split at run
    · cases run
    · rename_i part resolved
      rw [resolveSprite_mono grows resolved]
      dsimp only
      split at run
      · cases run
      · exact ih run

/-- A library that grows goes on resolving as before. -/
theorem resolve_mono (grows : library.Grows larger) {sprites : List Sprite} {r : Resolved}
    (run : library.resolve sprites = .ok r) : larger.resolve sprites = .ok r :=
  resolveAfter_mono grows run

theorem usageFailure?_eq_none {sprites : List Sprite}
    (passed : library.usageFailure? t sprites = none) {id : Identifier} {args : List Expr}
    {label : Option Identifier} {position : Option Position}
    (member : .use id args label position ∈ sprites) : (library.find? id.name).isSome := by
  fun_induction usageFailure? library t sprites with
  | case1 => cases member
  | case2 => cases passed
  | case3 => cases passed
  | case4 template _ _ _ rest _ known ih =>
    rcases List.mem_cons.mp member with here | later
    · cases here
      simpa [Option.isSome_iff_ne_none] using known
    · exact ih passed later
  | case5 sprite rest other ih =>
    rcases List.mem_cons.mp member with here | later
    · exact absurd here.symm (other id args label position)
    · exact ih passed later

/-- The template registered under the name `a` contains a usage of the name `b`. -/
def Contains (library : TemplateLibrary) (a b : String) : Prop :=
  ∃ t contents, library.find? a = some (t, contents) ∧ t.Uses b

theorem grows_register (run : library.register t = .ok (after, contents)) :
    library.Grows after := by
  obtain ⟨_, _, _, rfl⟩ := register_eq_ok.mp run
  intro name entry found
  rw [find?_concat, found, Option.some_or]

/-- After a registration, an entry is an old one or the new one, and its name was free. -/
theorem find?_register (run : library.register t = .ok (after, contents))
    {entry : Template × Resolved} :
    after.find? name = some entry ↔
      library.find? name = some entry ∨
        library.find? name = none ∧ t.name.name = name ∧ entry = (t, contents) := by
  obtain ⟨_, free, _, rfl⟩ := register_eq_ok.mp run
  rw [find?_concat, Option.or_eq_some_iff, Option.ite_none_right_eq_some, Option.some.injEq,
    eq_comm (b := entry)]

/-- A usage that comes with a registration is one of a template that was registered before. -/
theorem contains_register (run : library.register t = .ok (after, contents))
    (usage : after.Contains a b) :
    library.Contains a b ∨ library.find? a = none ∧ (library.find? b).isSome := by
  obtain ⟨u, kept, found, id, args, label, position, member, rfl⟩ := usage
  rcases (find?_register run).mp found with old | ⟨free, _, same⟩
  · exact Or.inl ⟨u, kept, old, id, args, label, position, member, rfl⟩
  · cases same
    obtain ⟨passed, _, _, _⟩ := register_eq_ok.mp run
    exact Or.inr ⟨free, usageFailure?_eq_none passed member⟩

/-- What holds of a library at any time. -/
structure Orderly (library : TemplateLibrary) : Prop where
  /-- Every template that is used is registered. -/
  known : ∀ a b, library.Contains a b → (library.find? b).isSome
  acyclic : ∀ name, ¬ Relation.TransGen library.Contains name name
  /-- What is kept with a template is what its sprites resolve to now. -/
  kept : ∀ name t contents, library.find? name = some (t, contents) →
    library.resolve t.sprites = .ok contents

theorem Orderly.acyclic_register (orderly : library.Orderly)
    (run : library.register t = .ok (after, contents)) :
    ¬ Relation.TransGen after.Contains name name := by
  -- Every usage ends at a template that was registered before, so a cycle has old usages only.
  have old {a b : String} (chain : Relation.TransGen after.Contains a b) :
      (library.find? b).isSome := by
    obtain ⟨k, _, last⟩ := Relation.TransGen.tail'_iff.mp chain
    rcases contains_register run last with before | ⟨_, known⟩
    · exact orderly.known k b before
    · exact known
  have back {a b : String} (start : (library.find? a).isSome) (usage : after.Contains a b) :
      library.Contains a b := by
    rcases contains_register run usage with before | ⟨free, _⟩
    · exact before
    · rw [free] at start
      cases start
  have stays {a b : String} (chain : Relation.TransGen after.Contains a b)
      (start : (library.find? a).isSome) : Relation.TransGen library.Contains a b := by
    induction chain with
    | single usage => exact .single (back start usage)
    | tail chain usage ih => exact .tail ih (back (old chain) usage)
  intro cycle
  exact orderly.acyclic name (stays cycle (old cycle))

theorem Orderly.register (orderly : library.Orderly)
    (run : library.register t = .ok (after, contents)) : after.Orderly := by
  have grows := grows_register run
  refine ⟨?_, fun name => orderly.acyclic_register run, ?_⟩
  · intro a b usage
    have known : (library.find? b).isSome := by
      rcases contains_register run usage with before | ⟨_, known⟩
      · exact orderly.known a b before
      · exact known
    obtain ⟨entry, found⟩ := Option.isSome_iff_exists.mp known
    rw [grows b entry found]
    rfl
  · intro name u kept found
    rcases (find?_register run).mp found with old | ⟨_, _, same⟩
    · exact resolve_mono grows (orderly.kept name u kept old)
    · cases same
      obtain ⟨_, _, resolved, _⟩ := register_eq_ok.mp run
      exact resolve_mono grows resolved

end TemplateLibrary

namespace Compilation

variable {c : Compilation} {i j : Nat} {t u : Template} {contents r : Resolved}

/-- The declaration is a template that is registered, with these labels and this count. -/
def Holds (c : Compilation) (i : Nat) (t : Template) (contents : Resolved) : Prop :=
  c.declarations[i]? = some (.template t (some contents))

/-- No template is registered yet. -/
structure Vacant (c : Compilation) : Prop where
  library : c.library.entries = []
  declarations : ∀ d ∈ c.declarations, ∀ t contents, d ≠ .template t (some contents)

/-- The library finds the templates that hold their contents, and no two of them have one name. -/
structure Shelved (c : Compilation) : Prop where
  library : c.library.Orderly
  found : ∀ name t contents, c.library.find? name = some (t, contents) ↔
    t.name.name = name ∧ ∃ i, c.Holds i t contents
  single : ∀ i j t u contents r, c.Holds i t contents → c.Holds j u r →
    t.name.name = u.name.name → i = j

theorem register_failed {failure : Failure} (failed : (c.register i).1 = .error failure) :
    (c.register i).2 = c := by
  unfold register at failed ⊢
  split
  · rename_i found
    simp only [found] at failed
    split at failed
    · rfl
    · cases failed
  · rfl

theorem register_template {before : Option Resolved} {library : TemplateLibrary}
    (found : c.declarations[i]? = some (.template t before))
    (run : c.library.register t = .ok (library, contents)) :
    (c.register i).2 = { c with library }.update i (.template t (some contents)) := by
  simp only [register, found, run]

/-- A registration changes nothing, or enters one template into the library. -/
theorem register_cases (c : Compilation) (i : Nat) :
    (c.register i).2 = c ∨ ∃ t before contents library,
      c.declarations[i]? = some (.template t before) ∧
        c.library.register t = .ok (library, contents) ∧
        (c.register i).2 = { c with library }.update i (.template t (some contents)) := by
  unfold register
  split
  · rename_i t before found
    split
    · exact Or.inl rfl
    · rename_i library contents run
      exact Or.inr ⟨t, before, contents, library, found, run, rfl⟩
  · exact Or.inl rfl

theorem holds_update {library : TemplateLibrary} {before : Option Resolved}
    (found : c.declarations[i]? = some (.template t before)) :
    ({ c with library }.update i (.template t (some contents))).Holds j u r ↔
      if j = i then u = t ∧ r = contents else c.Holds j u r := by
  obtain ⟨inside, _⟩ := List.getElem?_eq_some_iff.mp found
  unfold Holds update
  by_cases here : j = i
  · subst here
    simp [inside, eq_comm]
  · simp [List.getElem?_set_ne (Ne.symm here), here]

theorem Vacant.shelved (vacant : c.Vacant) : c.Shelved := by
  have nothing (name : String) : c.library.find? name = none := by
    simp [TemplateLibrary.find?, vacant.library]
  have noTemplate (i : Nat) (t : Template) (contents : Resolved) : ¬ c.Holds i t contents :=
    fun holds => vacant.declarations _ (List.mem_of_getElem? holds) t contents rfl
  have unused (a b : String) : ¬ c.library.Contains a b := by
    rintro ⟨t, contents, found, _⟩
    rw [nothing] at found
    cases found
  refine ⟨⟨?_, ?_, ?_⟩, ?_, ?_⟩
  · exact fun a b usage => absurd usage (unused a b)
  · intro name cycle
    obtain ⟨k, _, usage⟩ := Relation.TransGen.tail'_iff.mp cycle
    exact unused k name usage
  · intro name t contents found
    rw [nothing] at found
    cases found
  · intro name t contents
    simp [nothing, noTemplate]
  · exact fun i j t u contents r holds => absurd holds (noTemplate i t contents)

namespace Shelved

/-- A template whose name is free does not hold contents yet. -/
theorem not_holds (shelved : c.Shelved) {library : TemplateLibrary}
    (run : c.library.register t = .ok (library, contents)) (named : u.name.name = t.name.name) :
    ¬ c.Holds j u r := by
  intro holds
  obtain ⟨_, free, _, _⟩ := TemplateLibrary.register_eq_ok.mp run
  have taken := (shelved.found t.name.name u r).mpr ⟨named, j, holds⟩
  rw [free] at taken
  cases taken

theorem register (shelved : c.Shelved) (i : Nat) : (c.register i).2.Shelved := by
  obtain same | ⟨t, before, contents, library, atI, run, changed⟩ := c.register_cases i
  · rw [same]
    exact shelved
  rw [changed]
  refine ⟨shelved.library.register run, ?_, ?_⟩
  · intro name u r
    have entry : library.find? name = some (u, r) ↔ _ := TemplateLibrary.find?_register run
    simp only [holds_update atI]
    refine entry.trans ?_
    constructor
    · rintro (old | ⟨_, named, same⟩)
      · obtain ⟨named, j, holds⟩ := (shelved.found name u r).mp old
        refine ⟨named, j, ?_⟩
        split
        · rename_i here
          subst here
          cases atI.symm.trans holds
          exact absurd holds (shelved.not_holds run rfl)
        · exact holds
      · cases same
        exact ⟨named, i, by simp⟩
    · rintro ⟨named, j, holds⟩
      split at holds
      · obtain ⟨rfl, rfl⟩ := holds
        obtain ⟨_, free, _, _⟩ := TemplateLibrary.register_eq_ok.mp run
        rw [named] at free
        exact Or.inr ⟨free, named, rfl⟩
      · exact Or.inl ((shelved.found name u r).mpr ⟨named, j, holds⟩)
  · intro j k u v r s first second named
    rw [holds_update atI] at first second
    split at first <;> split at second
    · rename_i atJ atK
      rw [atJ, atK]
    · rw [first.1] at named
      exact absurd second (shelved.not_holds run named.symm)
    · rw [second.1] at named
      exact absurd first (shelved.not_holds run named)
    · exact shelved.single j k u v r s first second named

theorem holds_register (shelved : c.Shelved) (holds : c.Holds j u r) (i : Nat) :
    (c.register i).2.Holds j u r := by
  obtain same | ⟨t, before, contents, library, atI, run, changed⟩ := c.register_cases i
  · rwa [same]
  · rw [changed, holds_update atI]
    split
    · rename_i here
      subst here
      cases atI.symm.trans holds
      exact absurd holds (shelved.not_holds run rfl)
    · exact holds

end Shelved

theorem grows_register (c : Compilation) (i : Nat) :
    c.library.Grows (c.register i).2.library := by
  obtain same | ⟨t, before, contents, library, _, run, changed⟩ := c.register_cases i
  · rw [same]
    exact fun _ _ found => found
  · rw [changed]
    exact TemplateLibrary.grows_register run

/-- Asks for declarations to be registered, one after the other, whether that succeeds or not. -/
def registerEach (c : Compilation) (calls : List Nat) : Compilation :=
  calls.foldl (fun c i => (c.register i).2) c

theorem registerEach_append (c : Compilation) (calls more : List Nat) :
    c.registerEach (calls ++ more) = (c.registerEach calls).registerEach more :=
  List.foldl_append

theorem registerEach_concat (c : Compilation) (calls : List Nat) (i : Nat) :
    c.registerEach (calls ++ [i]) = ((c.registerEach calls).register i).2 :=
  c.registerEach_append calls [i]

theorem Shelved.registerEach (shelved : c.Shelved) (calls : List Nat) :
    (c.registerEach calls).Shelved := by
  induction calls generalizing c with
  | nil => exact shelved
  | cons i rest ih => exact ih (shelved.register i)

theorem Shelved.holds_registerEach (shelved : c.Shelved) (holds : c.Holds j u r)
    (calls : List Nat) : (c.registerEach calls).Holds j u r := by
  induction calls generalizing c with
  | nil => exact holds
  | cons i rest ih => exact ih (shelved.register i) (shelved.holds_register holds i)

theorem grows_registerEach (c : Compilation) (calls : List Nat) :
    c.library.Grows (c.registerEach calls).library := by
  induction calls generalizing c with
  | nil => exact fun _ _ found => found
  | cons i rest ih => exact (c.grows_register i).trans (ih _)

/-- There was a time when the used template was registered and the one that uses it was not. -/
theorem Vacant.registered_earlier (vacant : c.Vacant) {calls : List Nat} {a b : String}
    (usage : (c.registerEach calls).library.Contains a b) :
    ∃ before, before <+: calls ∧ ((c.registerEach before).library.find? b).isSome ∧
      (c.registerEach before).library.find? a = none := by
  induction calls using List.reverseRecOn with
  | nil =>
    obtain ⟨t, contents, found, _⟩ := usage
    have nothing : c.library.find? a = some (t, contents) := found
    simp [TemplateLibrary.find?, vacant.library] at nothing
  | append_singleton calls i ih =>
    have part : calls <+: calls ++ [i] := List.prefix_append calls [i]
    rw [registerEach_concat] at usage
    have earlier (old : (c.registerEach calls).library.Contains a b) :
        ∃ before, before <+: calls ++ [i] ∧ ((c.registerEach before).library.find? b).isSome ∧
          (c.registerEach before).library.find? a = none := by
      obtain ⟨before, first, known, free⟩ := ih old
      exact ⟨before, first.trans part, known, free⟩
    obtain same | ⟨t, _, contents, library, _, run, changed⟩ :=
      (c.registerEach calls).register_cases i
    · rw [same] at usage
      exact earlier usage
    · rw [changed] at usage
      rcases TemplateLibrary.contains_register run usage with old | ⟨free, known⟩
      · exact earlier old
      · exact ⟨calls, part, known, free⟩

/-- Whatever templates are asked to be registered, with or without success: at any time no template
contains itself through others, and each one was registered after all that it uses. Its contents are
what its sprites resolve to, then and ever after. A name stands for one and the same declaration
from its registration on. A registration that fails changes nothing. -/
theorem registerEach_orderly (vacant : c.Vacant) (calls more : List Nat) :
    (∀ name, ¬ Relation.TransGen (c.registerEach calls).library.Contains name name) ∧
    (∀ a b, (c.registerEach calls).library.Contains a b →
      ((c.registerEach calls).library.find? b).isSome ∧
        ∃ before, before <+: calls ∧ ((c.registerEach before).library.find? b).isSome ∧
          (c.registerEach before).library.find? a = none) ∧
    (∀ name t contents, (c.registerEach calls).library.find? name = some (t, contents) →
      (c.registerEach calls).library.resolve t.sprites = .ok contents ∧
      (c.registerEach (calls ++ more)).library.resolve t.sprites = .ok contents ∧
      (c.registerEach (calls ++ more)).library.find? name = some (t, contents) ∧
      ∃ i, (c.registerEach calls).Holds i t contents ∧
        ∀ j u r, u.name.name = name →
          ((c.registerEach (calls ++ more)).Holds j u r ↔ j = i ∧ u = t ∧ r = contents)) ∧
    ∀ i failure, ((c.registerEach calls).register i).1 = .error failure →
      ((c.registerEach calls).register i).2 = c.registerEach calls := by
  have now := vacant.shelved.registerEach calls
  have later := vacant.shelved.registerEach (calls ++ more)
  have grows : (c.registerEach calls).library.Grows (c.registerEach (calls ++ more)).library := by
    rw [registerEach_append]
    exact grows_registerEach _ more
  refine ⟨now.library.acyclic, ?_, ?_, fun _ _ => register_failed⟩
  · exact fun a b usage => ⟨now.library.known a b usage, vacant.registered_earlier usage⟩
  · intro name t contents found
    have kept := now.library.kept name t contents found
    obtain ⟨named, i, holds⟩ := (now.found name t contents).mp found
    have stays : (c.registerEach (calls ++ more)).Holds i t contents := by
      rw [registerEach_append]
      exact now.holds_registerEach holds more
    refine ⟨kept, TemplateLibrary.resolve_mono grows kept, grows name _ found, i, holds, ?_⟩
    intro j u r sameName
    constructor
    · intro other
      have same := later.single j i u t r contents other stays (sameName.trans named.symm)
      subst same
      cases stays.symm.trans other
      exact ⟨rfl, rfl, rfl⟩
    · rintro ⟨rfl, rfl, rfl⟩
      exact stays

def tile : Template :=
  ⟨⟨"tile", none⟩, [], [.real [⟨"base", none⟩] [] none, .real [] [] none], none⟩

def tileContents : Resolved :=
  ⟨⟨[⟨"base", 0, none⟩], by decide⟩, 2⟩

def tileRow : Template :=
  ⟨⟨"row", none⟩, [],
    [.use ⟨"tile", none⟩ [] (some ⟨"left", none⟩) none, .real [] [] none], none⟩

def tileRowContents : Resolved :=
  ⟨⟨[⟨"base", 0, none⟩, ⟨"left", 0, none⟩], by decide⟩, 3⟩

/-- A template, one that uses it, and another one of the first name. -/
def shelf : Compilation :=
  { (new {} { width := 80 } [] {} : Compilation) with
    declarations :=
      [.template tile none, .template tileRow none,
        .template ⟨⟨"tile", none⟩, [], [], none⟩ none] }

theorem resolve_tile : TemplateLibrary.resolve {} tile.sprites = .ok tileContents :=
  calc TemplateLibrary.resolveAfter {} {} tile.sprites
    _ = TemplateLibrary.resolveAfter {} ⟨tileContents.labels, 1⟩ [.real [] [] none] :=
      TemplateLibrary.resolveAfter_cons [⟨"base", 0, none⟩] rfl (.refl _) (by decide) rfl rfl _
    _ = TemplateLibrary.resolveAfter {} tileContents [] :=
      TemplateLibrary.resolveAfter_cons [] rfl (.refl _) .nil rfl rfl []

theorem resolve_tileRow :
    TemplateLibrary.resolve ⟨[(tile, tileContents)]⟩ tileRow.sprites = .ok tileRowContents :=
  calc TemplateLibrary.resolveAfter ⟨[(tile, tileContents)]⟩ {} tileRow.sprites
    _ = TemplateLibrary.resolveAfter ⟨[(tile, tileContents)]⟩ ⟨tileRowContents.labels, 2⟩
        [.real [] [] none] :=
      TemplateLibrary.resolveAfter_cons [⟨"base", 0, none⟩, ⟨"left", 0, none⟩] rfl (.refl _)
        (by decide) rfl rfl _
    _ = TemplateLibrary.resolveAfter ⟨[(tile, tileContents)]⟩ tileRowContents [] :=
      TemplateLibrary.resolveAfter_cons [] rfl (.refl _) .nil rfl rfl []

theorem library_shelf : (shelf.registerEach [1, 0, 1, 2]).library =
    ⟨[(tile, tileContents), (tileRow, tileRowContents)]⟩ := by
  have early : (shelf.register 1).2 = shelf := rfl
  have first := register_template (c := shelf) (i := 0) rfl
    (TemplateLibrary.register_eq_ok.mpr ⟨rfl, rfl, resolve_tile, rfl⟩)
  show ((((shelf.register 1).2.register 0).2.register 1).2.register 2).2.library = _
  rw [early, first, register_template (i := 1) rfl
    (TemplateLibrary.register_eq_ok.mpr ⟨rfl, rfl, resolve_tileRow, rfl⟩)]
  rfl

/-- The row is refused before there is a tile, and so is the second tile. -/
theorem registerEach_orderly_shelf :
    shelf.Vacant ∧
      (shelf.registerEach [1, 0, 1, 2]).library.entries.map
        (fun entry => (entry.1.name.name, entry.2.count)) = [("tile", 2), ("row", 3)] ∧
      (shelf.registerEach [1, 0, 1, 2]).library.Contains "row" "tile" ∧
      ∃ before, before <+: [1, 0, 1, 2] ∧
        ((shelf.registerEach before).library.find? "tile").isSome ∧
        (shelf.registerEach before).library.find? "row" = none := by
  have vacant : shelf.Vacant := ⟨rfl, by simp [shelf]⟩
  have usage : (shelf.registerEach [1, 0, 1, 2]).library.Contains "row" "tile" := by
    rw [library_shelf]
    exact ⟨_, _, rfl, ⟨"tile", none⟩, [], some ⟨"left", none⟩, none, by simp [tileRow], rfl⟩
  obtain ⟨_, earlier, _⟩ := registerEach_orderly vacant [1, 0, 1, 2] []
  refine ⟨vacant, ?_, usage, (earlier _ _ usage).2⟩
  rw [library_shelf]
  rfl

end Compilation

end Grf
