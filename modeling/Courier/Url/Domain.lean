import Courier.Text.Category
import Courier.Url.Address
import Courier.Url.Direction
import Courier.Url.Percent
import Courier.Url.Punycode
set_option autoImplicit false

namespace Courier.Url

def inRanges (ranges : List (Nat × Nat)) (n : Nat) : Bool := ranges.any fun (lo, hi) => lo ≤ n && n ≤ hi

def isIgnored (c : Char) : Bool :=
  inRanges [(0xAD, 0xAD), (0x34F, 0x34F), (0x180B, 0x180D), (0x180F, 0x180F), (0x200B, 0x200B), (0x2060, 0x2060),
    (0x2064, 0x2064), (0xFE00, 0xFE0F), (0xFEFF, 0xFEFF), (0x1BCA0, 0x1BCA3), (0xE0100, 0xE01EF)] c.val.toNat

/-- Characters without a folded form that a label may have. -/
def isForbidden (c : Char) : Bool :=
  inRanges [(0xA8, 0xA8), (0xAF, 0xAF), (0xB4, 0xB4), (0xB8, 0xB8), (0x2D8, 0x2DD), (0x37A, 0x37A), (0x384, 0x385),
    (0x1FBD, 0x1FBD), (0x1FBF, 0x1FC1), (0x1FCD, 0x1FCF), (0x1FDD, 0x1FDF), (0x1FED, 0x1FEE), (0x1FFD, 0x1FFE),
    (0x2017, 0x2017), (0x2024, 0x2026), (0x203E, 0x203E), (0x2047, 0x2049), (0x2100, 0x2101), (0x2105, 0x2106),
    (0x2488, 0x249B), (0x2A74, 0x2A74), (0x2FF0, 0x2FFF), (0x309B, 0x309C), (0x33C2, 0x33C2), (0x33C7, 0x33C7),
    (0x33D8, 0x33D8), (0xFC5E, 0xFC63), (0xFDFA, 0xFDFB), (0xFE13, 0xFE13), (0xFE16, 0xFE16), (0xFE19, 0xFE19),
    (0xFE30, 0xFE30), (0xFE47, 0xFE4C), (0xFE52, 0xFE52), (0xFE55, 0xFE56), (0xFE5F, 0xFE5F), (0xFE64, 0xFE65),
    (0xFE68, 0xFE68), (0xFE6A, 0xFE6B), (0xFE70, 0xFE70), (0xFE72, 0xFE72), (0xFE74, 0xFE74), (0xFE76, 0xFE76),
    (0xFE78, 0xFE78), (0xFE7A, 0xFE7A), (0xFE7C, 0xFE7C), (0xFE7E, 0xFE7E), (0xFFE3, 0xFFE3), (0xFFFC, 0xFFFD),
    (0x1F100, 0x1F100)] c.val.toNat

def plainDigit? (n : Nat) : Option Nat :=
  if n = 0xB2 then some 2
  else if n = 0xB3 then some 3
  else if n = 0xB9 then some 1
  else if n = 0x2070 ∨ n = 0x24EA then some 0
  else if 0x2074 ≤ n ∧ n ≤ 0x2079 then some (n - 0x2070)
  else if 0x2080 ≤ n ∧ n ≤ 0x2089 then some (n - 0x2080)
  else if 0x2460 ≤ n ∧ n ≤ 0x2468 then some (n - 0x245F)
  else if 0x1D7CE ≤ n ∧ n ≤ 0x1D7FF then some ((n - 0x1D7CE) % 10)
  else if 0x1FBF0 ≤ n ∧ n ≤ 0x1FBF9 then some (n - 0x1FBF0)
  else none

def smallLetter (c : Char) : Char :=
  let n := c.val.toNat
  if (0x41 ≤ n ∧ n ≤ 0x5A) ∨ (0xC0 ≤ n ∧ n ≤ 0xDE ∧ n ≠ 0xD7) ∨ (0x391 ≤ n ∧ n ≤ 0x3AB) ∨ (0x410 ≤ n ∧ n ≤ 0x42F) then
    Char.ofNat (n + 32)
  else if 0x400 ≤ n ∧ n ≤ 0x40F then Char.ofNat (n + 80)
  else if (0x100 ≤ n ∧ n ≤ 0x12F ∧ n % 2 = 0) ∨ (0x14A ≤ n ∧ n ≤ 0x177 ∧ n % 2 = 0) then Char.ofNat (n + 1)
  else c

def foldChar (c : Char) : Option (List Char) :=
  let n := c.val.toNat
  if isIgnored c then some []
  else if n = 0x3002 ∨ n = 0xFF0E ∨ n = 0xFF61 then some ['.']
  else if 0xFF01 ≤ n ∧ n ≤ 0xFF5E then some [smallLetter (Char.ofNat (n - 0xFEE0))]
  else match plainDigit? n with
    | some d => some [Char.ofNat (48 + d)]
    | none =>
      if n < 128 then some [smallLetter c]
      else if isForbidden c ∨ Text.isVisible c = false then none
      else some [smallLetter c]

def isDenied (c : Char) : Bool :=
  c.val.toNat < 33 || c.val.toNat == 127
    || ['%', '#', '/', ':', '<', '>', '?', '@', '[', '\\', ']', '^', '|'].contains c

/-- Marks that suppress the vowel before them, behind which a joiner may stand. -/
def isVirama (c : Char) : Bool :=
  [0x94D, 0x9CD, 0xA4D, 0xACD, 0xB4D, 0xBCD, 0xC4D, 0xCCD, 0xD3B, 0xD3C, 0xD4D, 0xDCA, 0xE3A, 0xEBA, 0xF84, 0x1039,
    0x103A, 0x1714, 0x1715, 0x1734, 0x17D2, 0x1A60, 0x1B44, 0x1BAA, 0x1BAB, 0x1BF2, 0x1BF3, 0x2D7F, 0xA806, 0xA82C,
    0xA8C4, 0xA953, 0xA9C0, 0xAAF6, 0xABED, 0x10A3F, 0x11046, 0x11070, 0x1107F, 0x110B9, 0x11133, 0x11134, 0x111C0,
    0x11235, 0x112EA, 0x1134D, 0x11442, 0x114C2, 0x115BF, 0x1163F, 0x116B6, 0x1172B, 0x11839, 0x1193D, 0x1193E, 0x119E0,
    0x11A34, 0x11A47, 0x11A99, 0x11C3F, 0x11D44, 0x11D45, 0x11D97].contains c.val.toNat

/-- Whether every joiner in a label stands behind a virama. -/
def joinersFit (before : Option Char) : List Char → Bool
  | [] => true
  | c :: r =>
    (if c.val.toNat = 0x200C ∨ c.val.toNat = 0x200D then before.any isVirama else true) && joinersFit (some c) r

def labelFits (label : List Char) : Bool :=
  !(label.head?.any Text.isMark) && joinersFit none label

/-- Whether a decoded label could have been written as it is: nothing in it folds away. -/
def isFolded (label : List Char) : Bool :=
  label.all fun c => foldChar c == some [c] && Text.kind c != .variant

def readLabel (label : List Char) : Option (List Char) :=
  if label.take 4 = ['x', 'n', '-', '-'] then
    match Punycode.decode (label.drop 4) with
    | some d =>
      if d.any (fun c => 128 ≤ c.val.toNat) ∧ isFolded d ∧ labelFits d ∧ label.all (fun c => c.val.toNat < 128) then some d
      else none
    | none => none
  else if labelFits label then some label
  else none

def foldOrJoiner (c : Char) : Option (List Char) :=
  if c.val.toNat = 0x200C ∨ c.val.toNat = 0x200D then some [c] else foldChar c

def writeLabel (label : List Char) : List Char :=
  if label.all (fun c => c.val.toNat < 128) then label else ['x', 'n', '-', '-'] ++ Punycode.encode label

def domainToAscii (name : List Char) : Option (List Char) :=
  (name.mapM foldOrJoiner).bind fun parts =>
    let folded := parts.flatten
    if folded.any isDenied then none
    else
      ((Text.splitAt '.' folded).mapM readLabel).bind fun labels =>
        if labels.any (·.any isRightToLeft) ∧ labels.all keepsDirection = false then none
        else some (['.'].intercalate (labels.map writeLabel))

end Courier.Url
