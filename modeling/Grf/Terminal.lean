import Grf.Text.Lines

namespace Grf

/-- How a part of a message is set off from the rest: by the colour of the text, or by that of the
ground. -/
inductive Rendition where
  | success
  | information
  | caution
  | alarm
  | successBlock
  | cautionBlock
  | alarmBlock

namespace Rendition

/-- The code under which a terminal knows the rendition. -/
def code : Rendition → String
  | success | information => "92"
  | caution => "33"
  | alarm => "31"
  | successBlock => "102;30"
  | cautionBlock => "43;30"
  | alarmBlock => "41;37"

def isBlock : Rendition → Bool
  | successBlock | cautionBlock | alarmBlock => true
  | _ => false

end Rendition

namespace Terminal

/-- The control sequence that selects a rendition such as `31` or `41;37`. -/
def select (code : String) : Bytes :=
  Text.escape :: Text.bytes ("[" ++ code ++ "m")

/-- Selects a rendition anew after each reset inside a line; `done` holds the part before,
backwards. -/
def reopen (code : String) (done : Bytes) : Bytes → Bytes
  | 0x1b :: 0x5b :: 0x30 :: 0x6d :: rest =>
    reopen code ((select "0" ++ select code).reverse ++ done) rest
  | b :: rest => reopen code (b :: done) rest
  | [] => done.reverse

/-- A line between the selection of a rendition and a reset. -/
def paintLine (code : String) (line : Bytes) : Bytes :=
  select code ++ reopen code [] line ++ select "0"

/-- A text that is painted line by line. A coloured ground is selected once more around the
whole. -/
def paint (rendition : Rendition) (text : Bytes) : Bytes :=
  let painted :=
    [Text.lineFeed].intercalate
      ((Text.pieces Text.lineFeed text).map (paintLine rendition.code))
  if rendition.isBlock then select rendition.code ++ painted ++ select "0" else painted

end Terminal

end Grf
