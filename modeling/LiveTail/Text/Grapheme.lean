import LiveTail.Text.Columns

/-! Graphemes: runs of characters that are shown as one.

A text falls into graphemes by the rules for extended grapheme clusters: between
two neighbours there is a break unless a rule joins them, and the rules look at the
classes of the two and, for emoji, flags and conjuncts, at what comes before. -/
namespace LiveTail.Text

/-- The code points that stand alone. -/
def controls : Array (Nat × Nat) :=
  #[(0x0, 0x1F), (0x7F, 0x9F), (0xAD, 0xAD), (0x61C, 0x61C), (0x180E, 0x180E), (0x200B, 0x200B),
    (0x200E, 0x200F), (0x2028, 0x202E), (0x2060, 0x206F), (0xFEFF, 0xFEFF), (0xFFF0, 0xFFFB),
    (0x13430, 0x1343F), (0x1BCA0, 0x1BCA3), (0x1D173, 0x1D17A), (0xE0000, 0xE001F),
    (0xE0080, 0xE00FF), (0xE01F0, 0xE0FFF)]

/-- The code points that join what follows. -/
def prepended : Array (Nat × Nat) :=
  #[(0x600, 0x605), (0x6DD, 0x6DD), (0x70F, 0x70F), (0x890, 0x891), (0x8E2, 0x8E2),
    (0xD4E, 0xD4E), (0x110BD, 0x110BD), (0x110CD, 0x110CD), (0x111C2, 0x111C3),
    (0x113D1, 0x113D1), (0x1193F, 0x1193F), (0x11941, 0x11941), (0x11A3A, 0x11A3A),
    (0x11A84, 0x11A89), (0x11D46, 0x11D46), (0x11F02, 0x11F02)]

/-- The spacing marks, which join what comes before. -/
def spacing : Array (Nat × Nat) :=
  #[(0x903, 0x903), (0x93B, 0x93B), (0x93E, 0x940), (0x949, 0x94C), (0x94E, 0x94F),
    (0x982, 0x983), (0x9BF, 0x9C0), (0x9C7, 0x9C8), (0x9CB, 0x9CC), (0xA03, 0xA03),
    (0xA3E, 0xA40), (0xA83, 0xA83), (0xABE, 0xAC0), (0xAC9, 0xAC9), (0xACB, 0xACC),
    (0xB02, 0xB03), (0xB40, 0xB40), (0xB47, 0xB48), (0xB4B, 0xB4C), (0xBBF, 0xBBF),
    (0xBC1, 0xBC2), (0xBC6, 0xBC8), (0xBCA, 0xBCC), (0xC01, 0xC03), (0xC41, 0xC44),
    (0xC82, 0xC83), (0xCBE, 0xCBE), (0xCC1, 0xCC1), (0xCC3, 0xCC4), (0xCF3, 0xCF3),
    (0xD02, 0xD03), (0xD3F, 0xD40), (0xD46, 0xD48), (0xD4A, 0xD4C), (0xD82, 0xD83),
    (0xDD0, 0xDD1), (0xDD8, 0xDDE), (0xDF2, 0xDF3), (0xE33, 0xE33), (0xEB3, 0xEB3),
    (0xF3E, 0xF3F), (0xF7F, 0xF7F), (0x1031, 0x1031), (0x103B, 0x103C), (0x1056, 0x1057),
    (0x1084, 0x1084), (0x17B6, 0x17B6), (0x17BE, 0x17C5), (0x17C7, 0x17C8), (0x1923, 0x1926),
    (0x1929, 0x192B), (0x1930, 0x1931), (0x1933, 0x1938), (0x1A19, 0x1A1A), (0x1A55, 0x1A55),
    (0x1A57, 0x1A57), (0x1A6D, 0x1A72), (0x1B04, 0x1B04), (0x1B3E, 0x1B41), (0x1B82, 0x1B82),
    (0x1BA1, 0x1BA1), (0x1BA6, 0x1BA7), (0x1BE7, 0x1BE7), (0x1BEA, 0x1BEC), (0x1BEE, 0x1BEE),
    (0x1C24, 0x1C2B), (0x1C34, 0x1C35), (0x1CE1, 0x1CE1), (0x1CF7, 0x1CF7), (0xA823, 0xA824),
    (0xA827, 0xA827), (0xA880, 0xA881), (0xA8B4, 0xA8C3), (0xA952, 0xA952), (0xA983, 0xA983),
    (0xA9B4, 0xA9B5), (0xA9BA, 0xA9BB), (0xA9BE, 0xA9BF), (0xAA2F, 0xAA30), (0xAA33, 0xAA34),
    (0xAA4D, 0xAA4D), (0xAAEB, 0xAAEB), (0xAAEE, 0xAAEF), (0xAAF5, 0xAAF5), (0xABE3, 0xABE4),
    (0xABE6, 0xABE7), (0xABE9, 0xABEA), (0xABEC, 0xABEC), (0x11000, 0x11000), (0x11002, 0x11002),
    (0x11082, 0x11082), (0x110B0, 0x110B2), (0x110B7, 0x110B8), (0x1112C, 0x1112C),
    (0x11145, 0x11146), (0x11182, 0x11182), (0x111B3, 0x111B5), (0x111BF, 0x111BF),
    (0x111CE, 0x111CE), (0x1122C, 0x1122E), (0x11232, 0x11233), (0x112E0, 0x112E2),
    (0x11302, 0x11303), (0x1133F, 0x1133F), (0x11341, 0x11344), (0x11347, 0x11348),
    (0x1134B, 0x1134C), (0x11362, 0x11363), (0x113B9, 0x113BA), (0x113CA, 0x113CA),
    (0x113CC, 0x113CD), (0x11435, 0x11437), (0x11440, 0x11441), (0x11445, 0x11445),
    (0x114B1, 0x114B2), (0x114B9, 0x114B9), (0x114BB, 0x114BC), (0x114BE, 0x114BE),
    (0x114C1, 0x114C1), (0x115B0, 0x115B1), (0x115B8, 0x115BB), (0x115BE, 0x115BE),
    (0x11630, 0x11632), (0x1163B, 0x1163C), (0x1163E, 0x1163E), (0x116AC, 0x116AC),
    (0x116AE, 0x116AF), (0x11726, 0x11726), (0x1182C, 0x1182E), (0x11838, 0x11838),
    (0x11931, 0x11935), (0x11937, 0x11938), (0x11940, 0x11940), (0x11942, 0x11942),
    (0x119D1, 0x119D3), (0x119DC, 0x119DF), (0x119E4, 0x119E4), (0x11A39, 0x11A39),
    (0x11A57, 0x11A58), (0x11A97, 0x11A97), (0x11C2F, 0x11C2F), (0x11C3E, 0x11C3E),
    (0x11CA9, 0x11CA9), (0x11CB1, 0x11CB1), (0x11CB4, 0x11CB4), (0x11D8A, 0x11D8E),
    (0x11D93, 0x11D94), (0x11D96, 0x11D96), (0x11EF5, 0x11EF6), (0x11F03, 0x11F03),
    (0x11F34, 0x11F35), (0x11F3E, 0x11F3F), (0x1612A, 0x1612C), (0x16F51, 0x16F87)]

/-- The pictographs. -/
def pictographic : Array (Nat × Nat) :=
  #[(0xA9, 0xA9), (0xAE, 0xAE), (0x203C, 0x203C), (0x2049, 0x2049), (0x2122, 0x2122),
    (0x2139, 0x2139), (0x2194, 0x2199), (0x21A9, 0x21AA), (0x231A, 0x231B), (0x2328, 0x2328),
    (0x2388, 0x2388), (0x23CF, 0x23CF), (0x23E9, 0x23F3), (0x23F8, 0x23FA), (0x24C2, 0x24C2),
    (0x25AA, 0x25AB), (0x25B6, 0x25B6), (0x25C0, 0x25C0), (0x25FB, 0x25FE), (0x2600, 0x2605),
    (0x2607, 0x2612), (0x2614, 0x2685), (0x2690, 0x2705), (0x2708, 0x2712), (0x2714, 0x2714),
    (0x2716, 0x2716), (0x271D, 0x271D), (0x2721, 0x2721), (0x2728, 0x2728), (0x2733, 0x2734),
    (0x2744, 0x2744), (0x2747, 0x2747), (0x274C, 0x274C), (0x274E, 0x274E), (0x2753, 0x2755),
    (0x2757, 0x2757), (0x2763, 0x2767), (0x2795, 0x2797), (0x27A1, 0x27A1), (0x27B0, 0x27B0),
    (0x27BF, 0x27BF), (0x2934, 0x2935), (0x2B05, 0x2B07), (0x2B1B, 0x2B1C), (0x2B50, 0x2B50),
    (0x2B55, 0x2B55), (0x3030, 0x3030), (0x303D, 0x303D), (0x3297, 0x3297), (0x3299, 0x3299),
    (0x1F000, 0x1F0FF), (0x1F10D, 0x1F10F), (0x1F12F, 0x1F12F), (0x1F16C, 0x1F171),
    (0x1F17E, 0x1F17F), (0x1F18E, 0x1F18E), (0x1F191, 0x1F19A), (0x1F1AD, 0x1F1E5),
    (0x1F201, 0x1F20F), (0x1F21A, 0x1F21A), (0x1F22F, 0x1F22F), (0x1F232, 0x1F23A),
    (0x1F23C, 0x1F23F), (0x1F249, 0x1F3FA), (0x1F400, 0x1F53D), (0x1F546, 0x1F64F),
    (0x1F680, 0x1F6FF), (0x1F774, 0x1F77F), (0x1F7D5, 0x1F7FF), (0x1F80C, 0x1F80F),
    (0x1F848, 0x1F84F), (0x1F85A, 0x1F85F), (0x1F888, 0x1F88F), (0x1F8AE, 0x1F8FF),
    (0x1F90C, 0x1F93A), (0x1F93C, 0x1F945), (0x1F947, 0x1FAFF), (0x1FC00, 0x1FFFD)]

/-- The consonants that form conjuncts. -/
def conjoining : Array (Nat × Nat) :=
  #[(0x915, 0x939), (0x958, 0x95F), (0x978, 0x97F), (0x995, 0x9A8), (0x9AA, 0x9B0),
    (0x9B2, 0x9B2), (0x9B6, 0x9B9), (0x9DC, 0x9DD), (0x9DF, 0x9DF), (0x9F0, 0x9F1),
    (0xA95, 0xAA8), (0xAAA, 0xAB0), (0xAB2, 0xAB3), (0xAB5, 0xAB9), (0xAF9, 0xAF9),
    (0xB15, 0xB28), (0xB2A, 0xB30), (0xB32, 0xB33), (0xB35, 0xB39), (0xB5C, 0xB5D),
    (0xB5F, 0xB5F), (0xB71, 0xB71), (0xC15, 0xC28), (0xC2A, 0xC39), (0xC58, 0xC5A),
    (0xD15, 0xD3A)]

/-- The pictographs that take a skin tone. -/
def modifiable : Array (Nat × Nat) :=
  #[(0x261D, 0x261D), (0x26F9, 0x26F9), (0x270A, 0x270D), (0x1F385, 0x1F385), (0x1F3C2, 0x1F3C4),
    (0x1F3C7, 0x1F3C7), (0x1F3CA, 0x1F3CC), (0x1F442, 0x1F443), (0x1F446, 0x1F450),
    (0x1F466, 0x1F478), (0x1F47C, 0x1F47C), (0x1F481, 0x1F483), (0x1F485, 0x1F487),
    (0x1F48F, 0x1F48F), (0x1F491, 0x1F491), (0x1F4AA, 0x1F4AA), (0x1F574, 0x1F575),
    (0x1F57A, 0x1F57A), (0x1F590, 0x1F590), (0x1F595, 0x1F596), (0x1F645, 0x1F647),
    (0x1F64B, 0x1F64F), (0x1F6A3, 0x1F6A3), (0x1F6B4, 0x1F6B6), (0x1F6C0, 0x1F6C0),
    (0x1F6CC, 0x1F6CC), (0x1F90C, 0x1F90C), (0x1F90F, 0x1F90F), (0x1F918, 0x1F91F),
    (0x1F926, 0x1F926), (0x1F930, 0x1F939), (0x1F93C, 0x1F93E), (0x1F977, 0x1F977),
    (0x1F9B5, 0x1F9B6), (0x1F9B8, 0x1F9B9), (0x1F9BB, 0x1F9BB), (0x1F9CD, 0x1F9CF),
    (0x1F9D1, 0x1F9DD), (0x1FAC3, 0x1FAC5), (0x1FAF0, 0x1FAF8)]

/-- The narrow characters that are shown wide when an emoji is asked for. -/
def emojified : Array (Nat × Nat) :=
  #[(0x23, 0x23), (0x2A, 0x2A), (0x30, 0x39), (0xA9, 0xA9), (0xAE, 0xAE), (0x203C, 0x203C),
    (0x2049, 0x2049), (0x2122, 0x2122), (0x2139, 0x2139), (0x2194, 0x2199), (0x21A9, 0x21AA),
    (0x2328, 0x2328), (0x23CF, 0x23CF), (0x23ED, 0x23EF), (0x23F1, 0x23F2), (0x23F8, 0x23FA),
    (0x24C2, 0x24C2), (0x25AA, 0x25AB), (0x25B6, 0x25B6), (0x25C0, 0x25C0), (0x25FB, 0x25FC),
    (0x2600, 0x2604), (0x260E, 0x260E), (0x2611, 0x2611), (0x2618, 0x2618), (0x261D, 0x261D),
    (0x2620, 0x2620), (0x2622, 0x2623), (0x2626, 0x2626), (0x262A, 0x262A), (0x262E, 0x262F),
    (0x2638, 0x263A), (0x2640, 0x2640), (0x2642, 0x2642), (0x265F, 0x2660), (0x2663, 0x2663),
    (0x2665, 0x2666), (0x2668, 0x2668), (0x267B, 0x267B), (0x267E, 0x267E), (0x2692, 0x2692),
    (0x2694, 0x2697), (0x2699, 0x2699), (0x269B, 0x269C), (0x26A0, 0x26A0), (0x26A7, 0x26A7),
    (0x26B0, 0x26B1), (0x26C8, 0x26C8), (0x26CF, 0x26CF), (0x26D1, 0x26D1), (0x26D3, 0x26D3),
    (0x26E9, 0x26E9), (0x26F0, 0x26F1), (0x26F4, 0x26F4), (0x26F7, 0x26F9), (0x2702, 0x2702),
    (0x2708, 0x2709), (0x270C, 0x270D), (0x270F, 0x270F), (0x2712, 0x2712), (0x2714, 0x2714),
    (0x2716, 0x2716), (0x271D, 0x271D), (0x2721, 0x2721), (0x2733, 0x2734), (0x2744, 0x2744),
    (0x2747, 0x2747), (0x2763, 0x2764), (0x27A1, 0x27A1), (0x2934, 0x2935), (0x2B05, 0x2B07),
    (0x1F170, 0x1F171), (0x1F17E, 0x1F17F), (0x1F321, 0x1F321), (0x1F324, 0x1F32C),
    (0x1F336, 0x1F336), (0x1F37D, 0x1F37D), (0x1F396, 0x1F397), (0x1F399, 0x1F39B),
    (0x1F39E, 0x1F39F), (0x1F3CB, 0x1F3CE), (0x1F3D4, 0x1F3DF), (0x1F3F3, 0x1F3F3),
    (0x1F3F5, 0x1F3F5), (0x1F3F7, 0x1F3F7), (0x1F43F, 0x1F43F), (0x1F441, 0x1F441),
    (0x1F4FD, 0x1F4FD), (0x1F549, 0x1F54A), (0x1F56F, 0x1F570), (0x1F573, 0x1F579),
    (0x1F587, 0x1F587), (0x1F58A, 0x1F58D), (0x1F590, 0x1F590), (0x1F5A5, 0x1F5A5),
    (0x1F5A8, 0x1F5A8), (0x1F5B1, 0x1F5B2), (0x1F5BC, 0x1F5BC), (0x1F5C2, 0x1F5C4),
    (0x1F5D1, 0x1F5D3), (0x1F5DC, 0x1F5DE), (0x1F5E1, 0x1F5E1), (0x1F5E3, 0x1F5E3),
    (0x1F5E8, 0x1F5E8), (0x1F5EF, 0x1F5EF), (0x1F5F3, 0x1F5F3), (0x1F5FA, 0x1F5FA),
    (0x1F6CB, 0x1F6CB), (0x1F6CD, 0x1F6CF), (0x1F6E0, 0x1F6E5), (0x1F6E9, 0x1F6E9),
    (0x1F6F0, 0x1F6F0), (0x1F6F3, 0x1F6F3)]

namespace Grapheme

/-- How a character joins its neighbours. -/
inductive Class where
  | other
  | carriageReturn
  | lineFeed
  | control
  | extend
  | joiner
  | flag
  | prepend
  | spacing
  | leading
  | vowel
  | trailing
  /-- A syllable without a trailing consonant. -/
  | openSyllable
  | closedSyllable
deriving DecidableEq, Repr

/-- A skin tone. -/
def isTone (c : Char) : Bool := 0x1F3FB ≤ c.toNat && c.toNat ≤ 0x1F3FF

def classOf (c : Char) : Class :=
  let n := c.toNat
  if n = 0xD then .carriageReturn
  else if n = 0xA then .lineFeed
  else if n < 0x20 then .control
  else if n < 0x7F then .other
  else if n = 0x200D then .joiner
  else if isExtending c || isTone c then .extend
  else if Ranges.contains controls c then .control
  else if 0x1F1E6 ≤ n && n ≤ 0x1F1FF then .flag
  else if Ranges.contains prepended c then .prepend
  else if Ranges.contains spacing c then .spacing
  else if (0x1100 ≤ n && n ≤ 0x115F) || (0xA960 ≤ n && n ≤ 0xA97C) then .leading
  else if (0x1160 ≤ n && n ≤ 0x11A7) || (0xD7B0 ≤ n && n ≤ 0xD7C6) || n = 0x16D63
      || (0x16D67 ≤ n && n ≤ 0x16D6A) then .vowel
  else if (0x11A8 ≤ n && n ≤ 0x11FF) || (0xD7CB ≤ n && n ≤ 0xD7FB) then .trailing
  else if 0xAC00 ≤ n && n ≤ 0xD7A3 then
    if (n - 0xAC00) % 28 = 0 then .openSyllable else .closedSyllable
  else .other

def isPictograph (c : Char) : Bool := Ranges.contains pictographic c

/-- The signs that join consonants to conjuncts. -/
def isLinker (c : Char) : Bool :=
  [0x94D, 0x9CD, 0xACD, 0xB4D, 0xC4D, 0xD4D].contains c.toNat

/-- Whether a pictograph, perhaps extended, ends what comes before a joiner. The
characters are given last first. -/
def endsPictograph (back : List Char) : Bool :=
  (back.dropWhile fun c => classOf c == .extend).head?.any isPictograph

/-- Whether a consonant with a linker ends what comes before. The characters are given
last first. -/
def endsConjunct (back : List Char) : Bool :=
  let marks := back.takeWhile fun c => classOf c == .extend || classOf c == .joiner
  marks.any isLinker && (back.drop marks.length).head?.any (Ranges.contains conjoining)

/-- Whether `c` continues the grapheme `back`, given last character first. -/
def continues (back : List Char) (c : Char) : Bool :=
  match back with
  | [] => false
  | last :: before =>
    match classOf last, classOf c with
    | .carriageReturn, .lineFeed => true
    | .control, _ | .carriageReturn, _ | .lineFeed, _ => false
    | _, .control | _, .carriageReturn | _, .lineFeed => false
    | .leading, .leading | .leading, .vowel | .leading, .openSyllable
    | .leading, .closedSyllable => true
    | .openSyllable, .vowel | .vowel, .vowel | .openSyllable, .trailing | .vowel, .trailing
    | .closedSyllable, .trailing | .trailing, .trailing => true
    | _, .extend | _, .joiner | _, .spacing => true
    | .prepend, _ => true
    | .flag, .flag => (back.takeWhile fun d => classOf d == .flag).length % 2 == 1
    | .joiner, _ =>
      (isPictograph c && endsPictograph before)
        || (Ranges.contains conjoining c && endsConjunct back)
    | _, _ => Ranges.contains conjoining c && endsConjunct back

/-- Splits text, given the grapheme so far with its last character first. -/
def splitFrom (back : List Char) : List Char → List (List Char)
  | [] => if back.isEmpty then [] else [back.reverse]
  | c :: rest =>
    if back.isEmpty || continues back c then splitFrom (c :: back) rest
    else back.reverse :: splitFrom [c] rest

/-- The graphemes of a text. -/
def split (text : List Char) : List (List Char) := splitFrom [] text

/-! ### Width -/

/-- Whether pictographs are joined to one. -/
def isJoined : List Char → Bool
  | c :: d :: rest => (c.toNat == 0x200D && isPictograph d) || isJoined (d :: rest)
  | _ => false

/-- The columns of characters side by side; an emoji or a toned pictograph takes two. -/
def columnsFrom : List Char → Nat
  | c :: d :: rest =>
    if d.toNat = 0xFE0F && Ranges.contains emojified c then 2 + columnsFrom rest
    else if isTone d && Ranges.contains modifiable c then 2 + columnsFrom rest
    else columns c + columnsFrom (d :: rest)
  | [c] => columns c
  | [] => 0

/-- The columns of a grapheme. -/
def width (g : List Char) : Nat :=
  if g.head?.any isPictograph && isJoined g then 2 else columnsFrom g

end Grapheme
end LiveTail.Text
