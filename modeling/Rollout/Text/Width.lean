import Rollout.Text.Columns
import Rollout.Text.Emoji

/-!
# Width of text in a terminal

The columns of a text are not always those of its characters: letters of some scripts merge
into one sign, and pictures that are joined are one picture. A text is measured from its end.
What stands to the right of a character is remembered as far as it may merge with it, and the
character then adds the columns by which it widens the text. Merging can take columns back.
-/

namespace Rollout.Text

/-- What the next character to the left may merge with. -/
inductive Partner
  | nothing
  | lineFeed
  | alef
  | lamed
  | ya
  /-- The vowel i before a letter ya that is joined to it. -/
  | vowelAndYa
  | consonant
  /-- The sign that joins consonants, before a consonant. -/
  | joinerAndConsonant
  | toneLetter
  | orkhonI
  | stackable
  | vowelE
  | vowelAi
  | picture
  | tone
  | flagLetter
  | flagLetters
  | joinedPicture
  | joinedKeycap
  | joinedFlagLetter
  | joinedFlags
  | joinedFlagsAndLetter
  | tagEnd
  | tagLetters (count : Nat)
  | tagDigits (count : Nat)
  deriving DecidableEq, Repr

namespace Partner

/-- Letters of scripts in which a joiner or signs without a form do not part what merges. -/
def seesThrough : Partner → Bool
  | .lamed | .ya | .vowelAndYa | .consonant | .joinerAndConsonant | .toneLetter | .orkhonI
  | .stackable => true
  | _ => false

/-- Partners that are remembered behind a sign that asks for a style. -/
def outlastsSign (p : Partner) : Bool := p = .alef || p.seesThrough

def outlastsEmojiSign (p : Partner) : Bool :=
  p.outlastsSign || p = .joinedPicture || p = .joinedKeycap

end Partner

/-- What is remembered of the text to the right. -/
structure Right where
  partner : Partner := .nothing
  /-- Whether a joiner stands before a letter that sees through it. -/
  joined : Bool := false
  emojiStyle : Bool := false
  textStyle : Bool := false
  /-- Whether a quotation mark is to be as wide as an ideograph. -/
  wideQuote : Bool := false
  deriving DecidableEq, Repr

namespace Right

def withEmojiStyle (r : Right) : Right :=
  if r.partner.outlastsEmojiSign then { r with emojiStyle := true } else { emojiStyle := true }

def withTextStyle (r : Right) : Right :=
  if r.partner.outlastsSign then { r with textStyle := true } else { textStyle := true }

def withWideQuote (r : Right) : Right :=
  if r.partner.outlastsSign then { r with wideQuote := true } else { wideQuote := true }

def withoutEmojiStyle (r : Right) : Right :=
  if r.partner.outlastsSign then { r with emojiStyle := false } else {}

end Right

/-- Signs without a form that some scripts see through. -/
def isSeenThrough (c : Char) : Bool :=
  inRanges
    [(0x34f, 0x34f), (0x17b4, 0x17b5), (0x180b, 0x180d), (0x180f, 0x180f), (0xfe00, 0xfe0f),
     (0xe0100, 0xe01ef)] c

def wideQuoteSign : Char := '\ufe01'

def isQuotationMark (c : Char) : Bool := inRanges [(0x2018, 0x2019), (0x201c, 0x201d)] c

def isLam (c : Char) : Bool :=
  inRanges
    [(0x644, 0x644), (0x6b5, 0x6b8), (0x76a, 0x76a), (0x8a6, 0x8a6), (0x8c7, 0x8c7)] c

def isAlef (c : Char) : Bool :=
  inRanges
    [(0x622, 0x623), (0x625, 0x625), (0x627, 0x627), (0x671, 0x673), (0x675, 0x675),
     (0x773, 0x774), (0x870, 0x882)] c

def isConsonant (c : Char) : Bool := inRanges [(0x2d31, 0x2d65), (0x2d6f, 0x2d6f)] c

/-- The Khmer letters that can be stacked under another. -/
def isStackable (c : Char) : Bool :=
  inRanges
    [(0x1780, 0x1782), (0x1784, 0x1787), (0x1789, 0x178c), (0x178e, 0x1793), (0x1795, 0x1798),
     (0x179b, 0x179d), (0x17a0, 0x17a0), (0x17a2, 0x17a2), (0x17a7, 0x17a7), (0x17ab, 0x17ac),
     (0x17af, 0x17af)] c

/-- What a character is to the one before it. -/
def partnerOf (c : Char) : Partner :=
  match c with
  | '\u05dc' => .lamed
  | '\u1a10' => .ya
  | '\ua4fc' | '\ua4fd' => .toneLetter
  | _ =>
    if c.toNat = 0x10c03 then .orkhonI
    else if c.toNat = 0x16d67 then .vowelE
    else if c.toNat = 0x16d68 then .vowelAi
    else if isAlef c then .alef
    else if isConsonant c then .consonant
    else if isStackable c then .stackable
    else if isFlagLetter c then .flagLetter
    else if isTone c then .tone
    else if isPicture c then .picture
    else .nothing

/-- A character that merges with nothing to its right. -/
def alone (c : Char) : Int × Right :=
  (charColumns c,
    if c = emojiSign then { emojiStyle := true }
    else if c = textSign then { textStyle := true }
    else if c = wideQuoteSign then { wideQuote := true }
    else { partner := partnerOf c })

def joinToPicture (c : Char) : Option (Int × Partner) :=
  if c = '\u20e3' then some (0, .joinedKeycap)
  else if isFlagLetter c then some (1, .joinedFlagLetter)
  else if isTone c then some (0, .tone)
  else if c = tagEnd then some (0, .tagEnd)
  else if partnerOf c = .picture then some (0, .picture)
  else none

/-- What a character comes to before tags: one more of `letters` letters or of `digits` digits
that have been read, or the flag that they belong to. -/
def readTag (letters digits : Nat) (c : Char) : Option (Int × Partner) :=
  if isTagLetter c && digits = 0 && letters < 6 then some (0, .tagLetters (letters + 1))
  else if isTagDigit c && letters < 5 && digits < 3 then some (0, .tagDigits (digits + 1))
  else if c = blackFlag && (3 ≤ letters || digits = 3) then some (0, .picture)
  else none

/-- The columns by which a character widens the text if it merges with its partner, and what it
then is to the character before it. -/
def merge (joined : Bool) (c : Char) : Partner → Option (Int × Partner)
  | .alef =>
    if isLam c then some (0, .nothing)
    else if isTransparent c then some (0, .alef)
    else none
  | .lamed => if joined && c = '\u05d0' then some (0, .nothing) else none
  | .ya => if joined && c = '\u1a17' then some (0, .vowelAndYa) else none
  | .vowelAndYa => if c = '\u1a15' then some (0, .nothing) else none
  | .consonant =>
    if c = '\u2d7f' then some (1, .joinerAndConsonant)
    else if joined && isConsonant c then some (0, .nothing)
    else none
  | .joinerAndConsonant => if isConsonant c then some (-1, .nothing) else none
  | .toneLetter => if '\ua4f8' ≤ c && c ≤ '\ua4fb' then some (0, .nothing) else none
  | .orkhonI => if joined && c.toNat = 0x10c32 then some (0, .nothing) else none
  | .stackable => if c = '\u17d2' then some (-1, .nothing) else none
  | .vowelE =>
    match c.toNat with
    | 0x16d63 => some (0, .nothing)
    | 0x16d67 => some (0, .vowelAi)
    | 0x16d68 => some (1, .vowelE)
    | 0x16d69 => some (0, .nothing)
    | _ => none
  | .vowelAi => if c.toNat = 0x16d63 then some (0, .nothing) else none
  | .picture => if c = joiner then some (0, .joinedPicture) else none
  | .tone =>
    if isToned c then some (0, .picture)
    else if c = joiner then some (0, .joinedPicture)
    else none
  | .flagLetter => if isFlagLetter c then some (1, .flagLetters) else none
  | .flagLetters =>
    if isFlagLetter c then some (1, .flagLetters)
    else if c = joiner then some (0, .joinedPicture)
    else none
  | .joinedPicture => joinToPicture c
  | .joinedFlagLetter => if isFlagLetter c then some (-1, .joinedFlags) else none
  | .joinedFlags =>
    if isFlagLetter c then some (3, .joinedFlagsAndLetter)
    else if c = joiner then some (0, .joinedPicture)
    else none
  | .joinedFlagsAndLetter =>
    if isFlagLetter c then some (-1, .joinedFlags)
    else if c = joiner then some (0, .joinedPicture)
    else none
  | .tagEnd => readTag 0 0 c
  | .tagLetters n => readTag n 0 c
  | .tagDigits n => readTag 0 n c
  | .nothing | .lineFeed | .joinedKeycap => none

/-- A character beyond the first 160 before what is not to be styled as an emoji. -/
def besidePartner (c : Char) (right : Right) : Int × Right :=
  if right = {} then alone c
  else if c = emojiSign then (0, right.withEmojiStyle)
  else if c = textSign then (0, right.withTextStyle)
  else if c = wideQuoteSign then (0, right.withWideQuote)
  else if right.textStyle && isNarrowing c then (1, {})
  else if right.wideQuote && isQuotationMark c then (2, {})
  else
    let right := { right with textStyle := false, wideQuote := false }
    if right.partner.seesThrough && c = joiner then (0, { right with joined := true })
    else if right.partner.seesThrough && isSeenThrough c then (0, right)
    else
      match merge right.joined c right.partner with
      | some (columns, partner) => (columns, { partner })
      | none => alone c

/-- The columns by which a character widens the text to its right, and what is remembered of
the text that it begins. -/
def beside (c : Char) (right : Right) : Int × Right :=
  if right.emojiStyle && isStyled c then
    let isJoined := right.partner = .joinedPicture || right.partner = .joinedKeycap
    (if isJoined then 0 else 2, { partner := .picture })
  else
    let right := if right.emojiStyle then right.withoutEmojiStyle else right
    if c.toNat ≤ 0xa0 then
      if c = '\n' then (1, { partner := .lineFeed })
      else if c = '\r' && right.partner = .lineFeed then (0, {})
      else (1, {})
    else besidePartner c right

/-- The columns of a text, and what is remembered of it. -/
def measure : List Char → Int × Right
  | [] => (0, {})
  | c :: rest =>
    let (columns, right) := measure rest
    let (more, right) := beside c right
    (columns + more, right)

def width (s : String) : Nat := (measure s.toList).1.toNat

end Rollout.Text
