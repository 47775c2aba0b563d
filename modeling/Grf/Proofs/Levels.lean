import Grf.Log
import Mathlib.Data.List.Induction
import Mathlib.Data.List.Infix

namespace Grf

namespace Log

/-- What can be done with a log. -/
inductive Operation where
  | error (failure : Failure)
  | warn (warning : Warning)
  | promote (enabled : Bool)
  | beginPhase (phase : String)
  /-- The phase took the given time. -/
  | endPhase (succeeded : Bool) (elapsed : String)
  | flush

namespace Operation

def isError : Operation → Bool
  | error _ => true
  | _ => false

def warning? : Operation → Option Warning
  | warn w => some w
  | _ => none

def promotion? : Operation → Option Bool
  | promote enabled => some enabled
  | _ => none

/-- The phase that the operation leads to, empty between phases. -/
def phase? : Operation → Option String
  | beginPhase phase => some phase
  | endPhase _ _ => some ""
  | _ => none

end Operation

open Operation

/-- Whether warnings count as errors after the operations, which the last change decides. -/
def promoting (operations : List Operation) : Bool :=
  ((operations.filterMap promotion?).getLast?).getD false

/-- The operations, each with whether warnings counted as errors when it was made. -/
def stamped (operations : List Operation) : List (Operation × Bool) :=
  operations.mapIdx fun i operation => (operation, promoting (operations.take i))

/-- The warnings that were made while warnings counted as errors, or while they did not. -/
def warnedWhile (promotes : Bool) (operations : List Operation) : List Warning :=
  ((stamped operations).filter fun entry => entry.2 == promotes).filterMap fun entry =>
    entry.1.warning?

variable {log quiet loud : Log} {operations : List Operation}

def operate (log : Log) : Operation → Log
  | .error failure => log.error failure
  | .warn w => log.warn w
  | .promote enabled => log.promote enabled
  | .beginPhase phase => log.beginPhase phase
  | .endPhase succeeded elapsed => log.endPhase succeeded elapsed
  | .flush => log.flush

/-- A new log after the operations. -/
def after (screen : Screen) (level : Int64) (operations : List Operation) : Log :=
  operations.foldl operate { screen, level }

theorem after_concat (screen : Screen) (level : Int64) (operations : List Operation)
    (operation : Operation) : after screen level (operations ++ [operation]) =
      (after screen level operations).operate operation := by
  rw [after, List.foldl_append, List.foldl_cons, List.foldl_nil, after]

theorem stamped_concat (operations : List Operation) (operation : Operation) :
    stamped (operations ++ [operation]) =
      stamped operations ++ [(operation, promoting operations)] := by
  rw [stamped, List.mapIdx_concat, List.take_left, stamped]
  congr 1
  rw [List.mapIdx_eq_mapIdx_iff]
  intro i inside
  rw [List.take_append_of_le_length (Nat.le_of_lt inside)]

theorem warnedWhile_concat (promotes : Bool) (operations : List Operation) (operation : Operation) :
    warnedWhile promotes (operations ++ [operation]) = warnedWhile promotes operations ++
      if promoting operations = promotes then operation.warning?.toList else [] := by
  rw [warnedWhile, stamped_concat, List.filter_append, List.filterMap_append, warnedWhile]
  by_cases same : promoting operations = promotes
  · cases operation <;> simp [same, warning?]
  · simp [same]

theorem promoting_concat (operations : List Operation) (operation : Operation) :
    promoting (operations ++ [operation]) =
      (operation.promotion?).getD (promoting operations) := by
  cases operation <;> simp [promoting, promotion?]

/-- What an operation shows. -/
def shows (log : Log) : Operation → List Bytes
  | .error failure =>
    if LogLevel.silent < log.level then [log.screen.showNotice (.ofFailure failure)] else []
  | .warn w =>
    if log.promotes ∧ LogLevel.silent < log.level then
      [log.screen.showNotice { Notice.ofWarning w with isError := true }]
    else []
  | .promote _ => []
  | .beginPhase _ => []
  | .endPhase succeeded elapsed =>
    if log.phase ≠ "" ∧ log.level = LogLevel.verbose then
      [log.screen.showPhase log.phase succeeded elapsed]
    else []
  | .flush =>
    (if LogLevel.warning ≤ log.level then log.warnings.map log.screen.showNotice else []) ++
      if log.level = LogLevel.verbose then
        [log.screen.showSummary log.errorCount log.warnings.length]
      else []

theorem record_error {notice : Notice} (isError : notice.isError = true) :
    log.record notice = { log with
      errorCount := log.errorCount + 1
      transcript := log.transcript ++
        if LogLevel.silent < log.level then [log.screen.showNotice notice] else [] } := by
  have promoted : (if log.promotes then { notice with isError := true } else notice) = notice := by
    rw [← isError, ite_self]
  unfold record
  rw [promoted]
  dsimp only
  rw [if_pos isError]
  split
  · rfl
  · rw [List.append_nil]

theorem isError_ofFailure (failure : Failure) : (Notice.ofFailure failure).isError = true := by
  unfold Notice.ofFailure
  split <;> rfl

/-- A warning that counts as an error is shown like one, any other is kept. -/
theorem warn_eq (log : Log) (w : Warning) : log.warn w =
    if log.promotes then log.record { Notice.ofWarning w with isError := true }
    else { log with warnings := log.warnings ++ [.ofWarning w] } := by
  have kept : (Notice.ofWarning w).isError = false := rfl
  unfold warn
  split
  · rename_i promotes
    unfold record
    simp only [promotes, if_true]
  · rename_i keeps
    unfold record
    simp only [keeps, kept, if_false, Bool.false_eq_true]

theorem endPhase_eq (log : Log) (succeeded : Bool) (elapsed : String) :
    log.endPhase succeeded elapsed = { log with
      phase := ""
      transcript := log.transcript ++ log.shows (.endPhase succeeded elapsed) } := by
  rw [endPhase, shows]
  by_cases idle : log.phase = ""
  · rw [if_pos idle, if_neg fun busy => busy.1 idle, List.append_nil, ← idle]
  · rw [if_neg idle]
    by_cases all : log.level = LogLevel.verbose
    · rw [if_pos all, if_pos ⟨idle, all⟩]
    · rw [if_neg all, if_neg fun shown => all shown.2, List.append_nil]

/-- All that an operation does to a log. Of what it changes only the transcript depends on the
level. -/
theorem operate_eq (log : Log) (operation : Operation) : log.operate operation = { log with
    promotes := operation.promotion?.getD log.promotes
    errorCount := log.errorCount + (if operation.isError then 1 else 0) +
      if log.promotes then operation.warning?.toList.length else 0
    warnings := log.warnings ++
      if log.promotes then [] else operation.warning?.toList.map .ofWarning
    phase := operation.phase?.getD log.phase
    transcript := log.transcript ++ log.shows operation } := by
  cases operation with
  | error failure =>
    show log.record _ = _
    rw [record_error (isError_ofFailure failure)]
    simp [shows, promotion?, warning?, isError, phase?]
  | warn w =>
    show log.warn w = _
    rw [warn_eq, record_error rfl]
    cases promotes : log.promotes <;>
      simp [shows, promotion?, warning?, isError, phase?, promotes]
  | promote enabled => simp [operate, promote, shows, promotion?, warning?, isError, phase?]
  | beginPhase phase => simp [operate, beginPhase, shows, promotion?, warning?, isError, phase?]
  | endPhase succeeded elapsed =>
    show log.endPhase succeeded elapsed = _
    rw [endPhase_eq]
    simp [promotion?, warning?, isError, phase?]
  | flush => simp [operate, flush, shows, promotion?, warning?, isError, phase?]

/-- The counts of a log are those of the operations. -/
structure Tallies (log : Log) (operations : List Operation) : Prop where
  promotes : log.promotes = promoting operations
  errors : log.errorCount =
    operations.countP isError + (warnedWhile true operations).length
  warnings : log.warnings = (warnedWhile false operations).map .ofWarning

theorem Tallies.operate (tallies : log.Tallies operations) (operation : Operation) :
    (log.operate operation).Tallies (operations ++ [operation]) := by
  rw [operate_eq]
  constructor
  · rw [promoting_concat, ← tallies.promotes]
  · dsimp only
    rw [warnedWhile_concat, ← tallies.promotes, List.countP_append, List.countP_singleton,
      List.length_append, tallies.errors, apply_ite List.length, List.length_nil]
    omega
  · dsimp only
    rw [warnedWhile_concat, ← tallies.promotes, List.map_append, tallies.warnings]
    cases log.promotes <;> rfl

theorem tallies_after (screen : Screen) (level : Int64) (operations : List Operation) :
    (after screen level operations).Tallies operations := by
  induction operations using List.reverseRecOn with
  | nil => exact ⟨rfl, rfl, rfl⟩
  | append_singleton operations operation ih =>
    rw [after_concat]
    exact ih.operate operation

/-- Two logs of the same operations, of which the second one shows more. -/
structure Echoes (quiet loud : Log) : Prop where
  screen : loud.screen = quiet.screen
  promotes : loud.promotes = quiet.promotes
  errorCount : loud.errorCount = quiet.errorCount
  warnings : loud.warnings = quiet.warnings
  phase : loud.phase = quiet.phase
  level : quiet.level ≤ loud.level
  verbose : loud.level ≤ LogLevel.verbose

theorem Echoes.operate (echoes : Echoes quiet loud) (operation : Operation) :
    Echoes (quiet.operate operation) (loud.operate operation) := by
  rw [operate_eq, operate_eq]
  constructor
  · exact echoes.screen
  · rw [echoes.promotes]
  · rw [echoes.errorCount, echoes.promotes]
  · rw [echoes.warnings, echoes.promotes]
  · rw [echoes.phase]
  · exact echoes.level
  · exact echoes.verbose

theorem prefix_of_imp {P Q : Prop} [Decidable P] [Decidable Q] (implied : P → Q)
    (texts : List Bytes) : (if P then texts else []) <+: if Q then texts else [] := by
  by_cases shown : P
  · rw [if_pos shown, if_pos (implied shown)]
  · rw [if_neg shown]
    exact List.nil_prefix

/-- What an operation shows at the lower level comes first at the higher one. -/
theorem Echoes.shows (echoes : Echoes quiet loud) (operation : Operation) :
    quiet.shows operation <+: loud.shows operation := by
  have heard (level : Int64) (above : level < quiet.level) : level < loud.level :=
    Int64.lt_of_lt_of_le above echoes.level
  have all (everything : quiet.level = LogLevel.verbose) : loud.level = LogLevel.verbose :=
    Int64.le_antisymm echoes.verbose (everything ▸ echoes.level)
  cases operation with
  | error failure =>
    rw [Log.shows, Log.shows, echoes.screen]
    exact prefix_of_imp (heard _) _
  | warn w =>
    rw [Log.shows, Log.shows, echoes.screen, echoes.promotes]
    exact prefix_of_imp (And.imp_right (heard _)) _
  | promote enabled => exact List.prefix_rfl
  | beginPhase phase => exact List.prefix_rfl
  | endPhase succeeded elapsed =>
    rw [Log.shows, Log.shows, echoes.screen, echoes.phase]
    exact prefix_of_imp (And.imp_right all) _
  | flush =>
    rw [Log.shows, Log.shows, echoes.screen, echoes.errorCount, echoes.warnings]
    by_cases everything : quiet.level = LogLevel.verbose
    · rw [everything, all everything]
    · rw [if_neg everything, List.append_nil]
      refine (prefix_of_imp (fun enough => ?_) _).trans (List.prefix_append _ _)
      exact Int64.le_trans enough echoes.level

theorem shows_silent (silent : log.level = LogLevel.silent) (operation : Operation) :
    log.shows operation = [] := by
  cases operation <;> simp [Log.shows, silent, LogLevel.silent, LogLevel.warning, LogLevel.verbose]

theorem echoes_after (screen : Screen) {low high : Int64} (ordered : low ≤ high)
    (most : high ≤ LogLevel.verbose) (operations : List Operation) :
    Echoes (after screen low operations) (after screen high operations) := by
  induction operations using List.reverseRecOn with
  | nil => exact ⟨rfl, rfl, rfl, rfl, rfl, ordered, most⟩
  | append_singleton operations operation ih =>
    rw [after_concat, after_concat]
    exact ih.operate operation

theorem level_after (screen : Screen) (level : Int64) (operations : List Operation) :
    (after screen level operations).level = level := by
  induction operations using List.reverseRecOn with
  | nil => rfl
  | append_singleton operations operation ih => rw [after_concat, operate_eq, ih]

/-- All that was shown so far. -/
def text (log : Log) : Bytes :=
  log.transcript.flatten

theorem text_operate (log : Log) (operation : Operation) :
    (log.operate operation).text = log.text ++ (log.shows operation).flatten := by
  rw [text, operate_eq, List.flatten_append, text]

/-- New logs at two levels that go through the same operations always count the same errors, keep the
same warnings and agree on whether to proceed. What an operation shows at the lower level is the
beginning of what it shows at the higher one, and nothing if that level is silent. The errors are those
reported and the warnings made while warnings counted as errors; the other warnings are kept in
order. -/
theorem after_monotone (screen : Screen) {low high : Int64} (ordered : low ≤ high)
    (most : high ≤ LogLevel.verbose) (operations : List Operation) :
    (after screen high operations).errorCount = (after screen low operations).errorCount ∧
    (after screen high operations).warnings = (after screen low operations).warnings ∧
    (after screen high operations).shouldProceed = (after screen low operations).shouldProceed ∧
    (∀ operation, ∃ shown more,
      (after screen low (operations ++ [operation])).text =
        (after screen low operations).text ++ shown ∧
      (after screen high (operations ++ [operation])).text =
        (after screen high operations).text ++ (shown ++ more) ∧
      (low = LogLevel.silent → shown = [])) ∧
    (after screen low operations).errorCount =
      operations.countP isError + (warnedWhile true operations).length ∧
    (after screen low operations).warnings = (warnedWhile false operations).map .ofWarning := by
  have echoes := echoes_after screen ordered most operations
  have tallies := tallies_after screen low operations
  refine ⟨echoes.errorCount, echoes.warnings, ?_, fun operation => ?_, tallies.errors,
    tallies.warnings⟩
  · rw [shouldProceed, echoes.errorCount, shouldProceed]
  · obtain ⟨rest, split⟩ := echoes.shows operation
    refine ⟨((after screen low operations).shows operation).flatten, rest.flatten, ?_, ?_,
      fun silent => ?_⟩
    · rw [after_concat, text_operate]
    · rw [after_concat, text_operate, ← split, List.flatten_append]
    · rw [shows_silent (by rw [level_after, silent]), List.flatten_nil]

/-- Warnings count as errors for a while only. -/
def session : List Operation :=
  [.warn (.raised "Usage" "first" none), .promote true, .warn (.raised "Usage" "second" none),
    .error (.external "third"), .beginPhase "Linking", .promote false,
    .warn (.raised "Usage" "fourth" none), .endPhase false "0.012"]

/-- A screen of the usual width without files. -/
def window : Screen :=
  { width := 80 }

theorem after_monotone_session :
    LogLevel.warning ≤ LogLevel.verbose ∧ LogLevel.verbose ≤ LogLevel.verbose ∧
    (after window LogLevel.verbose session).errorCount = 2 ∧
    (after window LogLevel.verbose session).warnings.map Notice.message = ["first", "fourth"] ∧
    ∃ shown more,
      (after window LogLevel.warning (session ++ [.flush])).text =
        (after window LogLevel.warning session).text ++ shown ∧
      (after window LogLevel.verbose (session ++ [.flush])).text =
        (after window LogLevel.verbose session).text ++ (shown ++ more) := by
  obtain ⟨errors, warnings, _, shows, errorCount, kept⟩ :=
    after_monotone window (show LogLevel.warning ≤ LogLevel.verbose by decide) (by decide) session
  obtain ⟨shown, more, quiet, loud, _⟩ := shows .flush
  refine ⟨by decide, by decide, ?_, ?_, shown, more, quiet, loud⟩
  · rw [errors, errorCount]
    rfl
  · rw [warnings, kept]
    rfl

end Log

end Grf
