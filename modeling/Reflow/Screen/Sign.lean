import Reflow.Character.Columns
import Reflow.Character.Joint
import Reflow.Text.Basic

/-!
# Signs

A text is drawn sign by sign.  A sign is what a reader takes for one character: a letter with its
marks, a Korean syllable, a flag, or an emoji of several parts.
-/

namespace Reflow

namespace Sign

/-- What has come before a place in a text, as far as it tells whether a sign ends there. -/
structure Before where
  joint : Joint
  /-- Whether the last character is the first half of a flag. -/
  halfFlag : Bool := false
  /-- Whether there is a picture with nothing but marks after it. -/
  picture : Bool := false
  /-- Whether there is such a picture before the zero-width joiner that is the last character. -/
  joinedPicture : Bool := false
  /-- Whether there is a consonant with nothing but marks after it. -/
  consonant : Bool := false
  /-- Whether one of those marks is a linker. -/
  linked : Bool := false
deriving DecidableEq, Repr

def Before.step (b : Option Before) (c : Char) : Before :=
  let joint := jointOf c
  let continues := joint = .extend || joint = .joiner
  let consonant := joint = .consonant || (continues && b.any (·.consonant))
  { joint
    halfFlag := joint = .regional && !b.any (·.halfFlag)
    picture := joint = .picture || (joint = .extend && b.any (·.picture))
    joinedPicture := joint = .joiner && b.any (·.picture)
    consonant
    linked := joint ≠ .consonant && consonant && (isLinker c || b.any (·.linked)) }

def isLonely : Joint → Bool
  | .carriageReturn | .lineFeed | .control => true
  | _ => false

/-- Whether the second of two Korean joints goes on with the syllable of the first one. -/
def continuesSyllable : Joint → Joint → Bool
  | .koreanL, .koreanL | .koreanL, .koreanV | .koreanL, .koreanLV | .koreanL, .koreanLVT => true
  | .koreanLV, .koreanV | .koreanV, .koreanV => true
  | .koreanLV, .koreanT | .koreanV, .koreanT | .koreanLVT, .koreanT | .koreanT, .koreanT => true
  | _, _ => false

/-- Whether a character with the given joint goes on with the sign before it. -/
def Before.continues (b : Before) (next : Joint) : Bool :=
  if b.joint = .carriageReturn && next = .lineFeed then true
  else if isLonely b.joint || isLonely next then false
  else
    match next with
    | .extend | .joiner | .spacing => true
    | _ =>
      b.joint = .lead || continuesSyllable b.joint next ||
        (b.joinedPicture && next = .picture) || (b.halfFlag && next = .regional) ||
        (b.linked && next = .consonant)

/-- The signs of a text after a place; `current` is the sign before the place, in reverse. -/
def signsFrom : Option Before → Text → Text → List Text
  | _, current, [] => if current.isEmpty then [] else [current.reverse]
  | b, current, c :: t =>
    let next := some (Before.step b c)
    if b.any fun b => b.continues (jointOf c) then signsFrom next (c :: current) t
    else if current.isEmpty then signsFrom next [c] t
    else current.reverse :: signsFrom next [c] t

end Sign

def Text.signs (t : Text) : List Text :=
  Sign.signsFrom none [] t

/-- The character that asks for a picture. -/
def pictureSelector : Char := '\ufe0f'

/-- The character that asks for a plain sign instead of a picture. -/
def textSelector : Char := '\ufe0e'

/-- Whether a character changes the skin tone of the picture before it. -/
def isSkinTone (c : Char) : Bool :=
  0x1F3FB ≤ c.toNat && c.toNat ≤ 0x1F3FF

/-- The number of columns of a sign.  Pictures take two columns, whatever they are made of. -/
def signColumns (sign : Text) : Nat :=
  match sign with
  | c :: d :: _ =>
    if isEmoji c && jointOf c ≠ .regional then
      if d = textSelector && !(0x1F200 ≤ c.toNat && c.toNat < 0x1F300) then 1
      else if d = pictureSelector || isSkinTone d || sign.contains '\u200d' then 2
      else total columns sign
    else total columns sign
  | _ => total columns sign

end Reflow
