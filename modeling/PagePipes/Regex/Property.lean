import PagePipes.Regex.CharSet

set_option autoImplicit false

/-!
# Named character properties

A pattern may name a general category, a script or a yes-or-no property. Each family lists the
names of properties that have the same members among the characters that a `CharSet` decides; the
many properties with no such member are one family. Names are compared without case, blanks,
underscores and hyphens, and an initial `is` may be left out.
-/
namespace PagePipes.Regex.Property

/-- Names separated by blanks, and the members as ranges of code points. -/
abbrev Family := String × List (Nat × Nat)

def categories : List Family := [
  (
    "c other cc control cntrl",
    [(0, 31), (127, 127)]),
  (
    "cf format cn unassigned co privateuse lm modifierletter lo otherletter lt " ++
    "titlecaseletter m mark combiningmark mc spacingmark me enclosingmark mn nonspacingmark " ++
    "nl letternumber no othernumber pf finalpunctuation pi initialpunctuation so " ++
    "othersymbol zl lineseparator zp paragraphseparator",
    []),
  (
    "l letter lc casedletter",
    [(65, 90), (97, 122), (383, 383), (8490, 8490)]),
  (
    "ll lowercaseletter",
    [(97, 122), (383, 383)]),
  (
    "lu uppercaseletter",
    [(65, 90), (8490, 8490)]),
  (
    "n number nd decimalnumber digit",
    [(48, 57)]),
  (
    "p punctuation punct",
    [(33, 35), (37, 42), (44, 47), (58, 59), (63, 64), (91, 93), (95, 95), (123, 123), (125, 125)]),
  (
    "pc connectorpunctuation",
    [(95, 95)]),
  (
    "pd dashpunctuation",
    [(45, 45)]),
  (
    "pe closepunctuation",
    [(41, 41), (93, 93), (125, 125)]),
  (
    "po otherpunctuation",
    [(33, 35), (37, 39), (42, 42), (44, 44), (46, 47), (58, 59), (63, 64), (92, 92)]),
  (
    "ps openpunctuation",
    [(40, 40), (91, 91), (123, 123)]),
  (
    "s symbol",
    [(36, 36), (43, 43), (60, 62), (94, 94), (96, 96), (124, 124), (126, 126)]),
  (
    "sc currencysymbol",
    [(36, 36)]),
  (
    "sk modifiersymbol",
    [(94, 94), (96, 96)]),
  (
    "sm mathsymbol",
    [(43, 43), (60, 62), (124, 124), (126, 126)]),
  (
    "z separator zs spaceseparator",
    [(32, 32)]),
  (
    "any assigned",
    [(0, 127), (383, 383), (8490, 8490)]),
  (
    "ascii",
    [(0, 127)])]

def scripts : List Family := [
  (
    "adlm adlam aghb caucasianalbanian ahom arab arabic armi imperialaramaic armn armenian " ++
    "avst avestan bali balinese bamu bamum bass bassavah batk batak beng bengali bhks " ++
    "bhaiksuki bopo bopomofo brah brahmi brai braille bugi buginese buhd buhid cakm chakma " ++
    "cans canadianaboriginal cari carian cham cher cherokee chrs chorasmian copt coptic " ++
    "qaac cpmn cyprominoan cprt cypriot cyrl cyrillic deva devanagari diak divesakuru dogr " ++
    "dogra dsrt deseret dupl duployan egyp egyptianhieroglyphs elba elbasan elym elymaic " ++
    "ethi ethiopic geor georgian glag glagolitic gong gunjalagondi gonm masaramgondi goth " ++
    "gothic gran grantha grek greek gujr gujarati guru gurmukhi hang hangul hani han hano " ++
    "hanunoo hatr hatran hebr hebrew hira hiragana hluw anatolianhieroglyphs hmng " ++
    "pahawhhmong hmnp nyiakengpuachuehmong hung oldhungarian ital olditalic java javanese " ++
    "kali kayahli kana katakana kawi khar kharoshthi khmr khmer khoj khojki kits " ++
    "khitansmallscript knda kannada kthi kaithi lana taitham laoo lao lepc lepcha limb " ++
    "limbu lina lineara linb linearb lisu lyci lycian lydi lydian mahj mahajani maka " ++
    "makasar mand mandaic mani manichaean marc marchen medf medefaidrin mend mendekikakui " ++
    "merc meroiticcursive mero meroitichieroglyphs mlym malayalam modi mong mongolian mroo " ++
    "mro mtei meeteimayek mult multani mymr myanmar nagm nagmundari nand nandinagari narb " ++
    "oldnortharabian nbat nabataean newa nkoo nko nshu nushu ogam ogham olck olchiki orkh " ++
    "oldturkic orya oriya osge osage osma osmanya ougr olduyghur palm palmyrene pauc " ++
    "paucinhau perm oldpermic phag phagspa phli inscriptionalpahlavi phlp psalterpahlavi " ++
    "phnx phoenician plrd miao prti inscriptionalparthian rjng rejang rohg hanifirohingya " ++
    "runr runic samr samaritan sarb oldsoutharabian saur saurashtra sgnw signwriting shaw " ++
    "shavian shrd sharada sidd siddham sind khudawadi sinh sinhala sogd sogdian sogo " ++
    "oldsogdian sora sorasompeng soyo soyombo sund sundanese sylo sylotinagri syrc syriac " ++
    "tagb tagbanwa takr takri tale taile talu newtailue taml tamil tang tangut tavt taiviet " ++
    "telu telugu tfng tifinagh tglg tagalog thaa thaana thai tibt tibetan tirh tirhuta tnsa " ++
    "tangsa toto ugar ugaritic vaii vai vith vithkuqi wara warangciti wcho wancho xpeo " ++
    "oldpersian xsux cuneiform yezi yezidi yiii yi zanb zanabazarsquare zinh inherited qaai " ++
    "zzzz unknown gara garay gukh gurungkhema krai kiratrai onao olonal sunu sunuwar todr " ++
    "todhri tutg tulutigalari",
    []),
  (
    "latn latin",
    [(65, 90), (97, 122), (383, 383), (8490, 8490)]),
  (
    "zyyy common",
    [(0, 64), (91, 96), (123, 127)])]

def flags : List Family := [
  (
    "ahex asciihexdigit hex hexdigit",
    [(48, 57), (65, 70), (97, 102)]),
  (
    "alpha alphabetic cased cwcm changeswhencasemapped ids idstart xids xidstart",
    [(65, 90), (97, 122), (383, 383), (8490, 8490)]),
  (
    "bidic bidicontrol dep deprecated di defaultignorablecodepoint ebase emojimodifierbase " ++
    "emod emojimodifier epres emojipresentation extpict extendedpictographic ext extender " ++
    "grext graphemeextend idsb idsbinaryoperator idst idstrinaryoperator ideo ideographic " ++
    "joinc joincontrol loe logicalorderexception nchar noncharactercodepoint radical ri " ++
    "regionalindicator uideo unifiedideograph vs variationselector pcm " ++
    "prependedconcatenationmark",
    []),
  (
    "bidim bidimirrored",
    [(40, 41), (60, 60), (62, 62), (91, 91), (93, 93), (123, 123), (125, 125)]),
  (
    "ci caseignorable",
    [(39, 39), (46, 46), (58, 58), (94, 94), (96, 96)]),
  (
    "cwcf changeswhencasefolded",
    [(65, 90), (383, 383), (8490, 8490)]),
  (
    "cwl changeswhenlowercased upper uppercase",
    [(65, 90), (8490, 8490)]),
  (
    "cwt changeswhentitlecased cwu changeswhenuppercased lower lowercase",
    [(97, 122), (383, 383)]),
  (
    "dash",
    [(45, 45)]),
  (
    "dia diacritic",
    [(94, 94), (96, 96)]),
  (
    "ecomp emojicomponent emoji",
    [(35, 35), (42, 42), (48, 57)]),
  (
    "grbase graphemebase",
    [(32, 126), (383, 383), (8490, 8490)]),
  (
    "idc idcontinue xidc xidcontinue",
    [(48, 57), (65, 90), (95, 95), (97, 122), (383, 383), (8490, 8490)]),
  (
    "math",
    [(43, 43), (60, 62), (94, 94), (124, 124), (126, 126)]),
  (
    "patsyn patternsyntax",
    [(33, 47), (58, 64), (91, 94), (96, 96), (123, 126)]),
  (
    "patws patternwhitespace wspace whitespace space",
    [(9, 13), (32, 32)]),
  (
    "qmark quotationmark",
    [(34, 34), (39, 39)]),
  (
    "sd softdotted",
    [(105, 106)]),
  (
    "sterm sentenceterminal",
    [(33, 33), (46, 46), (63, 63)]),
  (
    "term terminalpunctuation",
    [(33, 33), (44, 44), (46, 46), (58, 59), (63, 63)])]

def lookup? (families : List Family) (name : String) : Option CharSet :=
  (families.find? fun f => (f.1.splitOn " ").contains name).map fun f => CharSet.ofRanges f.2

/-- Whether a name starts with `is` in any case. -/
def startsWithIs : List Char → Bool
  | a :: b :: _ => a.toLower == 'i' && b.toLower == 's'
  | _ => false

/-- A name as it is compared. One name keeps its `is`, because without it another name is meant. -/
def normalize (name : String) : String :=
  let cs := name.toList
  let body := if startsWithIs cs then cs.drop 2 else cs
  let kept := (body.filter fun c =>
    decide (c.toNat < 128) && c != ' ' && c != '_' && c != '-').map Char.toLower
  if startsWithIs cs && kept == ['c'] then "isc" else String.ofList kept

/-- A property named alone: a yes-or-no property, a category or a script, looked for in this
order. Three short names belong to a category or script although a property has them too. -/
def byName? (name : String) : Option CharSet :=
  let n := normalize name
  let flag := if n = "cf" ∨ n = "sc" ∨ n = "lc" then none else lookup? flags n
  (flag.or (lookup? categories n)).or (lookup? scripts n)

def byValue? (name value : String) : Option CharSet :=
  let n := normalize name
  let v := normalize value
  if n = "gc" ∨ n = "generalcategory" then lookup? categories v
  else if n = "sc" ∨ n = "script" ∨ n = "scx" ∨ n = "scriptextensions" then lookup? scripts v
  else none

end PagePipes.Regex.Property
