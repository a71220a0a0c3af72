import ActorGlue.Text.Ranges

/-!
# Characters that belong together

How characters combine: the class of a mark, which says where it stands relative to its base, the
characters that are made of a base and a mark, and those that only stand for other characters.
-/

namespace ActorGlue.Text

/-- Characters that stand for others. A text in normal form has none of them. -/
def replacedRanges : Ranges := .ofRuns 0 [
  160, 1, 7, 1, 1, 1, 4, 1, 2, 4, 2, 3, 1, 3, 115, 2, 11, 2, 8, 1, 53, 1, 68, 9, 36, 3, 188, 9, 31,
  6, 2, 5, 91, 2, 1, 2, 47, 1, 5, 1, 3, 1, 5, 2, 1, 1, 72, 7, 25, 3, 1, 2, 3, 1, 397, 1, 237, 4,
  735, 8, 124, 2, 1, 1, 83, 1, 2, 1, 34, 3, 2, 1, 253, 2, 725, 1, 127, 1, 40, 2, 46, 1, 54, 1, 9, 1,
  4, 1, 4, 1, 4, 1, 12, 1, 9, 1, 1, 5, 7, 1, 17, 1, 9, 1, 4, 1, 4, 1, 4, 1, 12, 1, 322, 1, 3119, 3,
  1, 11, 1, 18, 1, 28, 13, 1, 34, 37, 218, 2, 213, 1, 1, 1, 1, 1, 1, 1, 1, 1, 1, 1, 1, 1, 61, 1, 1,
  5, 7, 1, 1, 1, 1, 3, 3, 1, 7, 1, 1, 3, 3, 1, 7, 1, 1, 3, 9, 1, 1, 1, 1, 2, 1, 11, 6, 1, 5, 1, 12,
  3, 8, 1, 3, 2, 1, 2, 4, 1, 1, 1, 8, 3, 13, 1, 7, 1, 16, 2, 2, 27, 1, 13, 11, 1, 87, 4, 1, 3, 1,
  11, 1, 2, 2, 5, 2, 3, 1, 1, 1, 1, 1, 1, 1, 4, 1, 3, 1, 7, 1, 6, 4, 5, 6, 48, 9, 1, 162, 2, 1, 2,
  248, 2, 309, 139, 1313, 1, 103, 3, 101, 1, 415, 2, 241, 1, 303, 1, 83, 1, 12, 214, 42, 1, 53, 1,
  1, 3, 96, 2, 2, 1, 95, 1, 49, 94, 3, 14, 96, 31, 1, 40, 8, 47, 1, 384, 29340, 2, 210, 1, 129, 3,
  3, 2, 866, 4, 9, 1, 19862, 270, 2, 1, 1, 1, 2, 10, 1, 1, 1, 1, 2, 2, 3, 68, 2, 106, 38, 7, 12, 5,
  5, 1, 1, 24, 1, 5, 1, 1, 1, 2, 1, 2, 1, 108, 33, 363, 18, 64, 2, 54, 40, 13, 19, 10, 22, 21, 2,
  12, 1, 19, 1, 4, 4, 3, 1, 1, 1, 135, 4, 190, 3, 6, 2, 6, 2, 6, 2, 3, 3, 7, 1, 7, 1938, 5, 1, 42,
  1, 9, 51619, 7, 86, 6, 575, 85, 1, 71, 1, 2, 2, 1, 2, 2, 2, 4, 1, 12, 1, 1, 1, 7, 1, 65, 1, 4, 2,
  8, 1, 7, 1, 28, 1, 4, 1, 5, 1, 1, 3, 7, 1, 340, 2, 292, 2, 50, 5632, 4, 1, 27, 1, 2, 1, 1, 2, 1,
  1, 10, 1, 4, 1, 1, 1, 1, 6, 1, 4, 1, 1, 1, 1, 1, 1, 3, 1, 2, 1, 1, 2, 1, 1, 1, 1, 1, 1, 1, 1, 1,
  1, 2, 1, 1, 2, 4, 1, 7, 1, 4, 1, 4, 1, 1, 1, 10, 1, 17, 5, 3, 1, 5, 1, 17, 580, 11, 5, 31, 1, 32,
  26, 3, 35, 1, 111, 3, 13, 44, 4, 9, 7, 2, 2462, 10, 64518, 542]

/-- The marks of each class, by run lengths. -/
def markRuns : List (Nat × List Nat) := [
  (1, [820, 5, 6555, 1, 13, 7, 1001, 2, 4, 3, 10, 2, 3, 2, 59725, 1, 24758, 5, 20905, 1, 5320, 3]),
  (6, [94192, 2]),
  (7, [2364, 1, 127, 1, 127, 1, 127, 1, 127, 1, 255, 1, 127, 1, 890, 1, 2812, 1, 177, 1, 80, 1,
    36219, 1, 26374, 1, 184, 1, 86, 1, 107, 1, 178, 1, 81, 2, 265, 1, 124, 1, 252, 1, 246, 1, 386,
    1, 264, 1, 1022, 1, 52231, 1]),
  (8, [12441, 2]),
  (9, [2381, 1, 127, 1, 127, 1, 127, 1, 127, 1, 127, 1, 127, 1, 127, 1, 109, 2, 16, 1, 124, 1, 111,
    1, 127, 1, 201, 1, 180, 2, 1753, 2, 30, 1, 157, 1, 653, 1, 227, 1, 101, 2, 70, 2, 4491, 1,
    31366, 1, 37, 1, 151, 1, 142, 1, 108, 1, 309, 1, 246, 1, 24145, 1, 1542, 1, 41, 1, 14, 1, 57, 1,
    121, 2, 139, 1, 116, 1, 180, 1, 98, 1, 244, 1, 127, 1, 252, 1, 127, 1, 118, 1, 116, 1, 269, 1,
    259, 2, 161, 1, 83, 1, 18, 1, 81, 1, 421, 1, 260, 2, 81, 1]),
  (10, [1456, 1]),
  (11, [1457, 1]),
  (12, [1458, 1]),
  (13, [1459, 1]),
  (14, [1460, 1]),
  (15, [1461, 1]),
  (16, [1462, 1]),
  (17, [1463, 1]),
  (18, [1464, 1, 14, 1]),
  (19, [1465, 2]),
  (20, [1467, 1]),
  (21, [1468, 1]),
  (22, [1469, 1]),
  (23, [1471, 1]),
  (24, [1473, 1]),
  (25, [1474, 1]),
  (26, [64286, 1]),
  (27, [1611, 1, 676, 1]),
  (28, [1612, 1, 676, 1]),
  (29, [1613, 1, 676, 1]),
  (30, [1560, 1, 53, 1]),
  (31, [1561, 1, 53, 1]),
  (32, [1562, 1, 53, 1]),
  (33, [1617, 1]),
  (34, [1618, 1]),
  (35, [1648, 1]),
  (36, [1809, 1]),
  (84, [3157, 1]),
  (91, [3158, 1]),
  (103, [3640, 2]),
  (107, [3656, 4]),
  (118, [3768, 2]),
  (122, [3784, 4]),
  (129, [3953, 1]),
  (130, [3954, 1, 7, 4, 2, 1]),
  (132, [3956, 1]),
  (202, [801, 2, 4, 2, 6823, 1]),
  (214, [7630, 1]),
  (216, [795, 1, 3101, 1, 115243, 2, 7, 5]),
  (218, [7674, 1, 4655, 1]),
  (220, [790, 4, 2, 5, 2, 4, 2, 11, 5, 4, 10, 3, 3, 2, 4, 4, 2, 2, 566, 1, 4, 1, 4, 1, 6, 6, 2, 1,
    26, 1, 143, 2, 5, 1, 2, 1, 131, 1, 6, 1, 2, 1, 67, 1, 2, 1, 2, 3, 1, 2, 1, 1, 3, 1, 1, 1, 1, 1,
    1, 1, 169, 1, 10, 1, 91, 3, 61, 3, 51, 5, 15, 1, 2, 1, 2, 1, 3, 3, 6, 1, 2, 2, 87, 1, 1477, 2,
    27, 1, 1, 1, 142, 1, 198, 1, 2221, 1, 220, 1, 102, 1, 53, 6, 2, 1, 1, 2, 2, 2, 5, 1, 161, 1,
    360, 5, 2, 4, 13, 1, 212, 1, 7, 1, 4, 1, 41, 1, 3, 1, 1, 1, 744, 1, 3, 4, 34875, 3, 390, 1,
    21362, 7, 975, 1, 226, 1, 1836, 1, 44, 1, 171, 1, 1119, 2, 3, 1, 1, 4, 50, 1, 1, 1, 49653, 8, 7,
    2, 5956, 7]),
  (222, [1434, 1, 18, 1, 5003, 1, 5875, 1]),
  (224, [12334, 2]),
  (226, [119149, 1]),
  (228, [1454, 1, 4858, 1, 1357, 2, 4658, 1]),
  (230, [768, 21, 40, 8, 1, 1, 3, 3, 3, 3, 4, 1, 3, 1, 7, 13, 275, 5, 266, 4, 1, 3, 2, 6, 6, 2, 1,
    2, 2, 1, 20, 1, 75, 8, 59, 2, 2, 5, 1, 2, 119, 7, 2, 4, 1, 1, 2, 2, 2, 2, 67, 1, 1, 2, 1, 2, 3,
    1, 2, 1, 1, 3, 1, 1, 1, 1, 1, 1, 1, 2, 160, 7, 1, 1, 34, 4, 1, 9, 1, 3, 1, 5, 106, 1, 3, 4, 42,
    5, 5, 14, 2, 2, 1, 2, 1, 3, 6, 3, 1, 2, 2, 5, 81, 1, 1, 2, 169, 1, 1411, 2, 2, 2, 981, 3, 1149,
    1, 348, 1, 220, 1, 93, 8, 51, 5, 6, 2, 4, 2, 2, 5, 1, 4, 156, 1, 1, 7, 348, 3, 7, 2, 4, 1, 19,
    1, 3, 2, 198, 2, 1, 7, 1, 2, 4, 37, 5, 1, 2, 1, 721, 2, 2, 4, 3, 2, 4, 1, 5, 1, 1, 1, 6, 1,
    3070, 3, 238, 32, 30831, 1, 4, 10, 32, 2, 80, 2, 494, 18, 446, 1, 1, 2, 3, 2, 5, 2, 1, 1, 21342,
    7, 7, 2, 1350, 5, 1684, 1, 40, 1, 172, 1, 574, 4, 387, 2, 155, 3, 1, 1, 53, 1, 1, 1, 379, 3,
    611, 7, 3, 5, 233, 1, 22225, 7, 26190, 5, 32, 4, 148, 3, 3515, 7, 1, 17, 2, 7, 1, 2, 1, 5, 261,
    7, 375, 1, 61, 4, 1620, 6]),
  (232, [789, 1, 4, 1, 61, 1, 6813, 1, 4661, 1]),
  (233, [860, 1, 2, 1, 2, 1, 6809, 1]),
  (234, [861, 2, 1, 2, 6763, 1]),
  (240, [837, 1])]

/-- Marks with their classes: ranges of code points of the same class. -/
def markRanges : List (Nat × Nat × Nat) :=
  markRuns.flatMap fun (markClass, runs) =>
    (Ranges.ofRuns 0 runs).map fun (first, last) => (first, last, markClass)

/-- For each mark some of the letters and signs that it goes with, each of them in front of the one
that is made of both. -/
def markedLetters : List (Nat × String) := [
  (0x300, "AÀEÈIÌNǸOÒUÙWẀYỲaàeèiìnǹoòuùwẁyỳÂẦÊỀÔỒÜǛâầêềôồüǜĂẰăằĒḔēḕŌṐōṑƠỜơờƯỪưừΑᾺΕῈΗῊΙῚΟῸΥῪΩῺαὰεὲ"),
  (0x300, "ηὴιὶοὸυὺωὼϊῒϋῢЕЀИЍеѐиѝἀἂἁἃἈἊἉἋἐἒἑἓἘἚἙἛἠἢἡἣἨἪἩἫἰἲἱἳἸἺἹἻὀὂὁὃὈὊὉὋὐὒὑὓὙὛὠὢὡὣὨὪὩὫ"),
  (0x301, "AÁCĆEÉGǴIÍKḰLĹMḾNŃOÓPṔRŔSŚUÚWẂYÝZŹaácćeégǵiíkḱlĺmḿnńoópṕrŕsśuúwẃyýzźÂẤÅǺÆǼÇḈÊẾÏḮÔỐÕṌØǾ"),
  (0x301, "ÜǗâấåǻæǽçḉêếïḯôốõṍøǿüǘĂẮăắĒḖēḗŌṒōṓŨṸũṹƠỚơớƯỨưứΑΆΕΈΗΉΙΊΟΌΥΎΩΏαάεέηήιίοόυύωώϊΐϋΰГЃКЌгѓкќ"),
  (0x301, "ἀἄἁἅἈἌἉἍἐἔἑἕἘἜἙἝἠἤἡἥἨἬἩἭἰἴἱἵἸἼἹἽὀὄὁὅὈὌὉὍὐὔὑὕὙὝὠὤὡὥὨὬὩὭ"),
  (0x302, "AÂCĈEÊGĜHĤIÎJĴOÔSŜUÛWŴYŶZẐaâcĉeêgĝhĥiîjĵoôsŝuûwŵyŷzẑẠẬạậẸỆẹệỌỘọộ"),
  (0x303, "AÃEẼIĨNÑOÕUŨVṼYỸaãeẽiĩnñoõuũvṽyỹÂẪÊỄÔỖâẫêễôỗĂẴăẵƠỠơỡƯỮưữ"),
  (0x304, "AĀEĒGḠIĪOŌUŪYȲaāeēgḡiīoōuūyȳÄǞÆǢÕȬÖȪÜǕäǟæǣõȭöȫüǖǪǬǫǭȦǠȧǡȮȰȯȱΑᾹΙῙΥῩαᾱιῑυῡИӢУӮиӣуӯḶḸḷḹṚṜ"),
  (0x304, "ṛṝ"),
  (0x306, "AĂEĔGĞIĬOŎUŬaăeĕgğiĭoŏuŭȨḜȩḝΑᾸΙῘΥῨαᾰιῐυῠАӐЕӖЖӁИЙУЎаӑеӗжӂийуўẠẶạặ"),
  (0x307, "AȦBḂCĊDḊEĖFḞGĠHḢIİMṀNṄOȮPṖRṘSṠTṪWẆXẊYẎZŻaȧbḃcċdḋeėfḟgġhḣmṁnṅoȯpṗrṙsṡtṫwẇxẋyẏzżŚṤśṥŠṦšṧ"),
  (0x307, "ṢṨṣṩ"),
  (0x308, "AÄEËHḦIÏOÖUÜWẄXẌYŸaäeëhḧiïoötẗuüwẅxẍyÿÕṎõṏŪṺūṻΙΪΥΫιϊυϋІЇАӒЕЁЖӜЗӞИӤОӦУӰЧӴЫӸЭӬаӓеёжӝзӟиӥ"),
  (0x308, "оӧуӱчӵыӹэӭіїӘӚәӛӨӪөӫ"),
  (0x309, "AẢEẺIỈOỎUỦYỶaảeẻiỉoỏuủyỷÂẨÊỂÔỔâẩêểôổĂẲăẳƠỞơởƯỬưử"),
  (0x30a, "AÅUŮaåuůwẘyẙ"),
  (0x30b, "OŐUŰoőuűУӲуӳ"),
  (0x30c, "AǍCČDĎEĚGǦHȞIǏKǨLĽNŇOǑRŘSŠTŤUǓZŽaǎcčdďeěgǧhȟiǐjǰkǩlľnňoǒrřsštťuǔzžÜǙüǚƷǮʒǯ"),
  (0x30f, "AȀEȄIȈOȌRȐUȔaȁeȅiȉoȍrȑuȕѴѶѵѷ"),
  (0x311, "AȂEȆIȊOȎRȒUȖaȃeȇiȋoȏrȓuȗ"),
  (0x313, "ΑἈΕἘΗἨΙἸΟὈΩὨαἀεἐηἠιἰοὀρῤυὐωὠ"),
  (0x314, "ΑἉΕἙΗἩΙἹΟὉΡῬΥὙΩὩαἁεἑηἡιἱοὁρῥυὑωὡ"),
  (0x31b, "OƠUƯoơuư"),
  (0x323, "AẠBḄDḌEẸHḤIỊKḲLḶMṂNṆOỌRṚSṢTṬUỤVṾWẈYỴZẒaạbḅdḍeẹhḥiịkḳlḷmṃnṇoọrṛsṣtṭuụvṿwẉyỵzẓƠỢơợƯỰưự"),
  (0x324, "UṲuṳ"),
  (0x325, "AḀaḁ"),
  (0x326, "SȘTȚsștț"),
  (0x327, "CÇDḐEȨGĢHḨKĶLĻNŅRŖSŞTŢcçdḑeȩgģhḩkķlļnņrŗsştţ"),
  (0x328, "AĄEĘIĮOǪUŲaąeęiįoǫuų"),
  (0x32d, "DḒEḘLḼNṊTṰUṶdḓeḙlḽnṋtṱuṷ"),
  (0x32e, "HḪhḫ"),
  (0x330, "EḚIḬUṴeḛiḭuṵ"),
  (0x331, "BḆDḎKḴLḺNṈRṞTṮZẔbḇdḏhẖkḵlḻnṉrṟtṯzẕ"),
  (0x338, "<≮=≠>≯←↚→↛↔↮⇐⇍⇒⇏⇔⇎∃∄∈∉∋∌∣∤∥∦∼≁≃≄≅≇≈≉≍≭≡≢≤≰≥≱≲≴≳≵≶≸≷≹≺⊀≻⊁≼⋠≽⋡⊂⊄⊃⊅⊆⊈⊇⊉⊑⋢⊒⋣⊢⊬⊨⊭⊩⊮⊫⊯⊲⋪⊳⋫⊴⋬"),
  (0x338, "⊵⋭"),
  (0x342, "αᾶηῆιῖυῦωῶϊῗϋῧἀἆἁἇἈἎἉἏἠἦἡἧἨἮἩἯἰἶἱἷἸἾἹἿὐὖὑὗὙὟὠὦὡὧὨὮὩὯ"),
  (0x345, "ΑᾼΗῌΩῼάᾴήῄαᾳηῃωῳώῴἀᾀἁᾁἂᾂἃᾃἄᾄἅᾅἆᾆἇᾇἈᾈἉᾉἊᾊἋᾋἌᾌἍᾍἎᾎἏᾏἠᾐἡᾑἢᾒἣᾓἤᾔἥᾕἦᾖἧᾗἨᾘἩᾙἪᾚἫᾛἬᾜἭᾝἮᾞἯᾟὠᾠὡᾡ"),
  (0x345, "ὢᾢὣᾣὤᾤὥᾥὦᾦὧᾧὨᾨὩᾩὪᾪὫᾫὬᾬὭᾭὮᾮὯᾯὰᾲὴῂὼῲᾶᾷῆῇῶῷ"),
  (0x3099, "うゔかがきぎくぐけげこごさざしじすずせぜそぞただちぢつづてでとどはばひびふぶへべほぼ"),
  (0x3099, "ゝゞウヴカガキギクグケゲコゴサザシジスズセゼソゾタダチヂツヅテデトドハバヒビフブヘベ"),
  (0x3099, "ホボワヷヰヸヱヹヲヺヽヾ"),
  (0x309a, "はぱひぴふぷへぺほぽハパヒピフプヘペホポ")]

/-- For each mark of another script the bases that it goes with, and the characters that are made of
them. -/
def markedBases : List (Nat × List (Nat × Nat)) := [
  (0x653, [(0x627, 0x622)]),
  (0x654, [(0x627, 0x623), (0x648, 0x624), (0x64a, 0x626), (0x6c1, 0x6c2), (0x6d2, 0x6d3),
    (0x6d5, 0x6c0)]),
  (0x655, [(0x627, 0x625)]),
  (0x93c, [(0x928, 0x929), (0x930, 0x931), (0x933, 0x934)]),
  (0x9be, [(0x9c7, 0x9cb)]),
  (0x9d7, [(0x9c7, 0x9cc)]),
  (0xb3e, [(0xb47, 0xb4b)]),
  (0xb56, [(0xb47, 0xb48)]),
  (0xb57, [(0xb47, 0xb4c)]),
  (0xbbe, [(0xbc6, 0xbca), (0xbc7, 0xbcb)]),
  (0xbd7, [(0xb92, 0xb94), (0xbc6, 0xbcc)]),
  (0xc56, [(0xc46, 0xc48)]),
  (0xcc2, [(0xcc6, 0xcca)]),
  (0xcd5, [(0xcbf, 0xcc0), (0xcc6, 0xcc7), (0xcca, 0xccb)]),
  (0xcd6, [(0xcc6, 0xcc8)]),
  (0xd3e, [(0xd46, 0xd4a), (0xd47, 0xd4b)]),
  (0xd57, [(0xd46, 0xd4c)]),
  (0xdca, [(0xdd9, 0xdda), (0xddc, 0xddd)]),
  (0xdcf, [(0xdd9, 0xddc)]),
  (0xddf, [(0xdd9, 0xdde)]),
  (0x102e, [(0x1025, 0x1026)]),
  (0x1b35, [(0x1b05, 0x1b06), (0x1b07, 0x1b08), (0x1b09, 0x1b0a), (0x1b0b, 0x1b0c),
    (0x1b0d, 0x1b0e), (0x1b11, 0x1b12), (0x1b3a, 0x1b3b), (0x1b3c, 0x1b3d), (0x1b3e, 0x1b40),
    (0x1b3f, 0x1b41), (0x1b42, 0x1b43)]),
  (0x110ba, [(0x11099, 0x1109a), (0x1109b, 0x1109c), (0x110a5, 0x110ab)]),
  (0x11127, [(0x11131, 0x1112e), (0x11132, 0x1112f)]),
  (0x1133e, [(0x11347, 0x1134b)]),
  (0x11357, [(0x11347, 0x1134c)]),
  (0x114b0, [(0x114b9, 0x114bc)]),
  (0x114ba, [(0x114b9, 0x114bb)]),
  (0x114bd, [(0x114b9, 0x114be)]),
  (0x115af, [(0x115b8, 0x115ba), (0x115b9, 0x115bb)]),
  (0x11930, [(0x11935, 0x11938)])]

/-- The bases of a mark and the characters that are made of them, from their texts two by two. -/
def inPairs : List Char → List (Nat × Nat)
  | base :: whole :: rest => (base.toNat, whole.toNat) :: inPairs rest
  | _ => []

/-- For each mark bases and the characters that are made of them. -/
def composites : List (Nat × List (Nat × Nat)) :=
  markedLetters.map (fun row => (row.1, inPairs row.2.toList)) ++ markedBases

/-- Base, mark and the character that is made of them. -/
def compositions : List (Nat × Nat × Nat) :=
  composites.flatMap fun (mark, pairs) => pairs.map fun (base, whole) => (base, mark, whole)

/-- The class of a mark; characters of class zero are no marks. -/
def markClass (c : Nat) : Nat :=
  match markRanges.find? fun range => range.1 ≤ c && c ≤ range.2.1 with
  | some range => range.2.2
  | none => 0

end ActorGlue.Text
