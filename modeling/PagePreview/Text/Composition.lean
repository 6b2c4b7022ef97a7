/-!
# Letters with marks

A letter with a mark can be one character or two, the letter and a mark that
combines with it. `decompose` writes all letters with marks as two or more
characters and brings the marks of one letter into their order; `compose`
does the same and then joins what can be joined. Two texts that read the same
give the same text.

The letters are those of the Latin, Greek and Cyrillic alphabets, of the
kana, and the syllables of Hangul, which need no table.
-/

namespace PagePreview.Text.Composition

/-- For each mark its place in the order of marks, and letters, each followed by that letter with
the mark. -/
def marks : List (Nat × Nat × String) :=
  [(0x300, 230,
      "AÀEÈIÌOÒUÙaàeèiìoòuùÜǛüǜNǸnǹЕЀИЍеѐиѝĒḔēḕŌṐōṑWẀwẁÂẦâầĂẰăằÊỀêềÔỒôồƠỜơờƯỪưừYỲyỳ"),
    (0x301, 230,
      "AÁEÉIÍOÓUÚYÝaáeéiíoóuúyýCĆcćLĹlĺNŃnńRŔrŕSŚsśZŹzźÜǗüǘGǴgǵÅǺåǻÆǼæǽØǾøǿ¨΅ΑΆΕΈΗΉ" ++
      "ΙΊΟΌΥΎΩΏϊΐαάεέηήιίϋΰοόυύωώϒϓГЃКЌгѓкќÇḈçḉĒḖēḗÏḮïḯKḰkḱMḾmḿÕṌõṍŌṒōṓPṔpṕŨṸũṹWẂwẃ" ++
      "ÂẤâấĂẮăắÊẾêếÔỐôốƠỚơớƯỨưứ"),
    (0x302, 230, "AÂEÊIÎOÔUÛaâeêiîoôuûCĈcĉGĜgĝHĤhĥJĴjĵSŜsŝWŴwŵYŶyŷZẐzẑẠẬạậẸỆẹệỌỘọộ"),
    (0x303, 230, "AÃNÑOÕaãnñoõIĨiĩUŨuũVṼvṽÂẪâẫĂẴăẵEẼeẽÊỄêễÔỖôỗƠỠơỡƯỮưữYỸyỹ"),
    (0x304, 230,
      "AĀaāEĒeēIĪiīOŌoōUŪuūÜǕüǖÄǞäǟȦǠȧǡÆǢæǣǪǬǫǭÖȪöȫÕȬõȭȮȰȯȱYȲyȳИӢиӣУӮуӯGḠgḡḶḸḷḹṚṜṛṝ"),
    (0x306, 230, "AĂaăEĔeĕGĞgğIĬiĭOŎoŏUŬuŭУЎИЙийуўЖӁжӂАӐаӑЕӖеӗȨḜȩḝẠẶạặ"),
    (0x307, 230,
      "CĊcċEĖeėGĠgġIİZŻzżAȦaȧOȮoȯBḂbḃDḊdḋFḞfḟHḢhḣMṀmṁNṄnṅPṖpṗRṘrṙSṠsṡŚṤśṥŠṦšṧṢṨṣṩTṪ" ++
      "tṫWẆwẇXẊxẋYẎyẏſẛ"),
    (0x308, 230,
      "AÄEËIÏOÖUÜaäeëiïoöuüyÿYŸΙΪΥΫιϊυϋϒϔЕЁІЇеёіїАӒаӓӘӚәӛЖӜжӝЗӞзӟИӤиӥОӦоӧӨӪөӫЭӬэӭУӰ" ++
      "уӱЧӴчӵЫӸыӹHḦhḧÕṎõṏŪṺūṻWẄwẅXẌxẍtẗ"),
    (0x309, 230, "AẢaảÂẨâẩĂẲăẳEẺeẻÊỂêểIỈiỉOỎoỏÔỔôổƠỞơởUỦuủƯỬưửYỶyỷ"),
    (0x30A, 230, "AÅaåUŮuůwẘyẙ"),
    (0x30B, 230, "OŐoőUŰuűУӲуӳ"),
    (0x30C, 230,
      "CČcčDĎdďEĚeěLĽlľNŇnňRŘrřSŠsšTŤtťZŽzžAǍaǎIǏiǐOǑoǒUǓuǔÜǙüǚGǦgǧKǨkǩƷǮʒǯjǰHȞhȟ"),
    (0x30F, 230, "AȀaȁEȄeȅIȈiȉOȌoȍRȐrȑUȔuȕѴѶѵѷ"),
    (0x311, 230, "AȂaȃEȆeȇIȊiȋOȎoȏRȒrȓUȖuȗ"),
    (0x31B, 216, "OƠoơUƯuư"),
    (0x323, 220,
      "BḄbḅDḌdḍHḤhḥKḲkḳLḶlḷMṂmṃNṆnṇRṚrṛSṢsṣTṬtṭVṾvṿWẈwẉZẒzẓAẠaạEẸeẹIỊiịOỌoọƠỢơợUỤuụ" ++
      "ƯỰưựYỴyỵ"),
    (0x324, 220, "UṲuṳ"),
    (0x325, 220, "AḀaḁ"),
    (0x326, 220, "SȘsșTȚtț"),
    (0x327, 202, "CÇcçGĢgģKĶkķLĻlļNŅnņRŖrŗSŞsşTŢtţEȨeȩDḐdḑHḨhḩ"),
    (0x328, 202, "AĄaąEĘeęIĮiįUŲuųOǪoǫ"),
    (0x32D, 220, "DḒdḓEḘeḙLḼlḽNṊnṋTṰtṱUṶuṷ"),
    (0x32E, 220, "HḪhḫ"),
    (0x330, 220, "EḚeḛIḬiḭUṴuṵ"),
    (0x331, 220, "BḆbḇDḎdḏKḴkḵLḺlḻNṈnṉRṞrṟTṮtṯZẔzẕhẖ"),
    (0x3099, 8,
      "かがきぎくぐけげこごさざしじすずせぜそぞただちぢつづてでとどはばひびふぶへべほぼうゔゝゞカガキギクグケゲコゴサザシジスズセゼソゾタダチヂツヅテデトドハバ" ++
      "ヒビフブヘベホボウヴワヷヰヸヱヹヲヺヽヾ"),
    (0x309A, 8, "はぱひぴふぷへぺほぽハパヒピフプヘペホポ")]

/-- The places of marks that are joined to no letter. -/
def looseMarks : List (Nat × Nat × Nat) :=
  [(0x300, 0x314, 230), (0x315, 0x315, 232), (0x316, 0x319, 220), (0x31A, 0x31A, 232),
    (0x31C, 0x320, 220), (0x321, 0x322, 202), (0x329, 0x333, 220), (0x334, 0x338, 1),
    (0x339, 0x33C, 220), (0x33D, 0x344, 230), (0x346, 0x346, 230), (0x347, 0x349, 220),
    (0x34A, 0x34C, 230), (0x34D, 0x34E, 220), (0x350, 0x352, 230), (0x363, 0x36F, 230)]

/-- The place of a character in the order of marks; none for a character that is no mark. -/
def place (c : Char) : Nat :=
  match marks.lookup c.toNat with
  | some (n, _) => n
  | none =>
    match looseMarks.find? fun (low, high, _) => low ≤ c.toNat && c.toNat ≤ high with
    | some (_, _, n) => n
    | none => 0

/-- The letter with a mark, in a row of letters. -/
def withMark? (letter : Char) : List Char → Option Char
  | a :: b :: row => if a == letter then some b else withMark? letter row
  | _ => none

/-- The letter without its mark, in a row of letters. -/
def withoutMark? (joined : Char) : List Char → Option Char
  | a :: b :: row => if b == joined then some a else withoutMark? joined row
  | _ => none

/-- The parts of a character: a letter and its mark, or what a syllable begins with and its last
sound. -/
def parts? (c : Char) : Option (Char × Char) :=
  let n := c.toNat
  if 0xAC00 ≤ n && n ≤ 0xD7A3 then
    let i := n - 0xAC00
    if i % 28 == 0 then some (Char.ofNat (0x1100 + i / 588), Char.ofNat (0x1161 + i % 588 / 28))
    else some (Char.ofNat (n - i % 28), Char.ofNat (0x11A7 + i % 28))
  else if n < 0xC0 then none
  else marks.findSome? fun (mark, _, row) =>
    (withoutMark? c row.toList).map fun letter => (letter, Char.ofNat mark)

/-- The character that two characters make. -/
def join? (a b : Char) : Option Char :=
  let m := a.toNat
  let n := b.toNat
  if 0x1100 ≤ m && m ≤ 0x1112 && 0x1161 ≤ n && n ≤ 0x1175 then
    some (Char.ofNat (0xAC00 + (m - 0x1100) * 588 + (n - 0x1161) * 28))
  else if 0xAC00 ≤ m && m ≤ 0xD7A3 && (m - 0xAC00) % 28 == 0 && 0x11A8 ≤ n && n ≤ 0x11C2 then
    some (Char.ofNat (m + (n - 0x11A7)))
  else match marks.lookup n with
    | some (_, row) => withMark? a row.toList
    | none => none

/-- A character taken apart. No letter has more than three marks. -/
def takenApart : (bound : Nat) → Char → List Char
  | 0, c => [c]
  | bound + 1, c =>
    match parts? c with
    | none => [c]
    | some (letter, mark) => takenApart bound letter ++ [mark]

/-- Puts a mark behind those of one letter that come before it. -/
def insertMark (c : Char) : List Char → List Char
  | [] => [c]
  | d :: ds => if place d ≤ place c then d :: insertMark c ds else c :: d :: ds

/-- The marks of each letter in their order. -/
def orderMarks : (held : List Char) → List Char → List Char
  | held, [] => held
  | held, c :: cs =>
    if place c == 0 then held ++ c :: orderMarks [] cs else orderMarks (insertMark c held) cs

/-- A text in which letters and marks are apart. -/
def decompose (cs : List Char) : List Char := orderMarks [] (cs.flatMap (takenApart 4))

/-- Joins what follows to a letter. `held` are the characters that stay behind it, last first. -/
def joinAll : (letter : Option Char) → (held : List Char) → List Char → List Char
  | letter, held, [] => letter.toList ++ held.reverse
  | none, _, c :: cs => if place c == 0 then joinAll (some c) [] cs else c :: joinAll none [] cs
  | some a, held, c :: cs =>
    let free := match held with
      | [] => true
      | d :: _ => place d < place c
    match if free then join? a c else none with
    | some joined => joinAll (some joined) held cs
    | none =>
      if place c == 0 then a :: held.reverse ++ joinAll (some c) [] cs
      else joinAll (some a) (c :: held) cs

/-- A text in which letters and marks are joined wherever they can be. -/
def compose (cs : List Char) : List Char := joinAll none [] (decompose cs)

/-! ## Characters that look alike -/

/-- Characters that stand for others, each followed by what it stands for. -/
def lookalikes : List (Char × String) :=
  [('\u00A0', " "), ('¨', " \u0308"), ('ª', "a"), ('¯', " \u0304"), ('²', "2"), ('³', "3"),
    ('´', " \u0301"), ('µ', "μ"), ('¸', " \u0327"), ('¹', "1"), ('º', "o"), ('¼', "1⁄4"),
    ('½', "1⁄2"), ('¾', "3⁄4"), ('Ĳ', "IJ"), ('ĳ', "ij"), ('ŉ', "ʼn"), ('ſ', "s"), ('Ǆ', "DŽ"),
    ('ǆ', "dž"), ('Ǉ', "LJ"), ('ǉ', "lj"), ('Ǌ', "NJ"), ('ǌ', "nj"), ('\u2002', " "),
    ('\u2003', " "), ('\u2009', " "), ('\u200A', " "), ('‥', ".."), ('…', "..."), ('⁰', "0"),
    ('ⁱ', "i"), ('⁴', "4"), ('⁵', "5"), ('⁶', "6"), ('⁷', "7"), ('⁸', "8"), ('⁹', "9"), ('ⁿ', "n"),
    ('₀', "0"), ('₁', "1"), ('₂', "2"), ('₃', "3"), ('₄', "4"), ('₅', "5"), ('₆', "6"), ('₇', "7"),
    ('₈', "8"), ('₉', "9"), ('℃', "°C"), ('ℓ', "l"), ('№', "No"), ('™', "TM"), ('Ⅰ', "I"),
    ('Ⅱ', "II"), ('Ⅲ', "III"), ('Ⅳ', "IV"), ('Ⅴ', "V"), ('①', "1"), ('②', "2"), ('③', "3"),
    ('\u3000', " "), ('ﬀ', "ff"), ('ﬁ', "fi"), ('ﬂ', "fl"), ('ﬃ', "ffi"), ('ﬄ', "ffl"), ('ﬅ', "st"),
    ('ﬆ', "st")]

/-- Characters that are another one under a second number. -/
def doubles : List (Char × Char) :=
  [('\u212A', 'K'), ('\u212B', 'Å'), ('\u2126', 'Ω'), ('\u0340', '\u0300'), ('\u0341', '\u0301'),
    ('\u037E', ';'), ('\u0387', '·'), ('\u1FEF', '\u0060')]

/-- Brings second numbers of characters to the first. -/
def undouble (cs : List Char) : List Char := cs.map fun c => (doubles.lookup c).getD c

/-- Puts what they stand for in the place of characters that look like others. -/
def plain (cs : List Char) : List Char :=
  cs.flatMap fun c =>
    if 0xFF01 ≤ c.toNat && c.toNat ≤ 0xFF5E then [Char.ofNat (c.toNat - 0xFEE0)]
    else match lookalikes.lookup c with
      | some s => s.toList
      | none => [c]

end PagePreview.Text.Composition
