import PagePipes.Text.Printable

set_option autoImplicit false

/-!
# Folding domain characters

Before a domain is compared or encoded its characters are folded: capital letters become small,
compatibility forms become the characters they stand for, some characters vanish and others are not
allowed in a domain at all. ASCII is not listed here.
-/
namespace PagePipes.Url.Folding

/-- Boundaries of the code points that no domain may hold. -/
def disallowed : Array Nat := #[
    128, 161, 168, 169, 175, 176, 180, 181, 184, 185, 728, 734, 888, 891, 896, 902, 907, 908, 909,
    910, 930, 931, 1216, 1217, 1328, 1329, 1367, 1369, 1419, 1421, 1424, 1425, 1470, 1471, 1472,
    1473, 1475, 1476, 1478, 1479, 1480, 1542, 1544, 1545, 1547, 1548, 1549, 1550, 1563, 1565,
    1566, 1611, 1632, 1642, 1643, 1648, 1649, 1750, 1757, 1758, 1765, 1767, 1774, 1776, 1786,
    1809, 1810, 1840, 1867, 1958, 1969, 2027, 2036, 2038, 2042, 2045, 2046, 2070, 2074, 2075,
    2084, 2085, 2088, 2089, 2094, 2137, 2140, 2160, 2191, 2200, 2208, 2229, 2230, 2248, 2274,
    2275, 2436, 2437, 2445, 2447, 2449, 2451, 2473, 2474, 2481, 2482, 2483, 2486, 2490, 2492,
    2501, 2503, 2505, 2507, 2511, 2519, 2520, 2524, 2526, 2527, 2532, 2534, 2559, 2561, 2564,
    2565, 2571, 2575, 2577, 2579, 2601, 2602, 2609, 2610, 2612, 2613, 2615, 2616, 2618, 2620,
    2621, 2622, 2627, 2631, 2633, 2635, 2638, 2641, 2642, 2649, 2653, 2654, 2655, 2662, 2679,
    2689, 2692, 2693, 2702, 2703, 2706, 2707, 2729, 2730, 2737, 2738, 2740, 2741, 2746, 2748,
    2758, 2759, 2762, 2763, 2766, 2768, 2769, 2784, 2788, 2790, 2802, 2809, 2816, 2817, 2820,
    2821, 2829, 2831, 2833, 2835, 2857, 2858, 2865, 2866, 2868, 2869, 2874, 2876, 2885, 2887,
    2889, 2891, 2894, 2901, 2904, 2908, 2910, 2911, 2916, 2918, 2936, 2946, 2948, 2949, 2955,
    2958, 2961, 2962, 2966, 2969, 2971, 2972, 2973, 2974, 2976, 2979, 2981, 2984, 2987, 2990,
    3002, 3006, 3011, 3014, 3017, 3018, 3022, 3024, 3025, 3031, 3032, 3046, 3067, 3072, 3085,
    3086, 3089, 3090, 3113, 3114, 3130, 3132, 3141, 3142, 3145, 3146, 3150, 3157, 3159, 3160,
    3163, 3165, 3166, 3168, 3172, 3174, 3184, 3191, 3213, 3214, 3217, 3218, 3241, 3242, 3252,
    3253, 3258, 3260, 3269, 3270, 3273, 3274, 3278, 3285, 3287, 3293, 3295, 3296, 3300, 3302,
    3312, 3313, 3316, 3328, 3341, 3342, 3345, 3346, 3397, 3398, 3401, 3402, 3408, 3412, 3428,
    3430, 3456, 3457, 3460, 3461, 3479, 3482, 3506, 3507, 3516, 3517, 3518, 3520, 3527, 3530,
    3531, 3535, 3541, 3542, 3543, 3544, 3552, 3558, 3568, 3570, 3573, 3585, 3643, 3647, 3676,
    3713, 3715, 3716, 3717, 3718, 3723, 3724, 3748, 3749, 3750, 3751, 3774, 3776, 3781, 3782,
    3783, 3784, 3791, 3792, 3802, 3804, 3808, 3840, 3912, 3913, 3949, 3953, 3992, 3993, 4029,
    4030, 4045, 4046, 4059, 4096, 4256, 4295, 4296, 4301, 4302, 4304, 4447, 4449, 4681, 4682,
    4686, 4688, 4695, 4696, 4697, 4698, 4702, 4704, 4745, 4746, 4750, 4752, 4785, 4786, 4790,
    4792, 4799, 4800, 4801, 4802, 4806, 4808, 4823, 4824, 4881, 4882, 4886, 4888, 4955, 4957,
    4989, 4992, 5018, 5024, 5110, 5112, 5118, 5120, 5760, 5761, 5789, 5792, 5881, 5888, 5910,
    5919, 5943, 5952, 5972, 5984, 5997, 5998, 6001, 6002, 6004, 6016, 6068, 6070, 6110, 6112,
    6122, 6128, 6138, 6144, 6150, 6151, 6158, 6159, 6170, 6176, 6265, 6272, 6315, 6320, 6390,
    6400, 6431, 6432, 6444, 6448, 6460, 6464, 6465, 6468, 6510, 6512, 6517, 6528, 6572, 6576,
    6602, 6608, 6619, 6622, 6684, 6686, 6751, 6752, 6781, 6783, 6794, 6800, 6810, 6816, 6830,
    6832, 6863, 6912, 6989, 6992, 7039, 7040, 7156, 7164, 7224, 7227, 7242, 7245, 7305, 7312,
    7355, 7357, 7368, 7376, 7419, 7424, 7958, 7960, 7966, 7968, 8006, 8008, 8014, 8016, 8024,
    8025, 8026, 8027, 8028, 8029, 8030, 8031, 8062, 8064, 8117, 8118, 8125, 8126, 8127, 8130,
    8133, 8134, 8141, 8144, 8148, 8150, 8156, 8160, 8173, 8175, 8176, 8178, 8181, 8182, 8189,
    8203, 8204, 8208, 8215, 8216, 8228, 8231, 8232, 8240, 8254, 8255, 8263, 8266, 8287, 8288,
    8289, 8292, 8293, 8304, 8306, 8308, 8335, 8336, 8349, 8352, 8385, 8400, 8433, 8450, 8453,
    8455, 8498, 8499, 8501, 8505, 8579, 8580, 8588, 8592, 9255, 9280, 9291, 9312, 9352, 9372,
    10868, 10869, 11124, 11126, 11158, 11159, 11508, 11513, 11558, 11559, 11560, 11565, 11566,
    11568, 11624, 11631, 11633, 11647, 11671, 11680, 11687, 11688, 11695, 11696, 11703, 11704,
    11711, 11712, 11719, 11720, 11727, 11728, 11735, 11736, 11743, 11744, 11870, 11904, 11930,
    11931, 12020, 12032, 12246, 12289, 12352, 12353, 12439, 12441, 12443, 12445, 12544, 12549,
    12592, 12593, 12644, 12645, 12687, 12688, 12772, 12784, 12831, 12832, 13250, 13251, 13255,
    13256, 13272, 13273, 42125, 42128, 42183, 42192, 42540, 42560, 42744, 42752, 42955, 42960,
    42962, 42963, 42964, 42965, 42970, 42994, 43053, 43056, 43066, 43072, 43128, 43136, 43206,
    43214, 43226, 43232, 43348, 43359, 43389, 43392, 43470, 43471, 43482, 43486, 43519, 43520,
    43575, 43584, 43598, 43600, 43610, 43612, 43715, 43739, 43767, 43777, 43783, 43785, 43791,
    43793, 43799, 43808, 43815, 43816, 43823, 43824, 43884, 43888, 44014, 44016, 44026, 44032,
    55204, 55216, 55239, 55243, 55292, 63744, 64110, 64112, 64218, 64256, 64263, 64275, 64280,
    64286, 64287, 64297, 64298, 64450, 64451, 64830, 64848, 64975, 64976, 65021, 65042, 65044,
    65046, 65047, 65049, 65056, 65072, 65073, 65095, 65101, 65106, 65108, 65109, 65111, 65119,
    65120, 65124, 65126, 65127, 65129, 65130, 65279, 65280, 65281, 65283, 65284, 65285, 65286,
    65295, 65296, 65306, 65307, 65308, 65309, 65310, 65313, 65339, 65343, 65372, 65373, 65440,
    65441, 65471, 65474, 65480, 65482, 65488, 65490, 65496, 65498, 65501, 65504, 65507, 65508,
    65511, 65512, 65519, 65536, 65548, 65549, 65575, 65576, 65595, 65596, 65598, 65599, 65614,
    65616, 65630, 65664, 65787, 65792, 65795, 65799, 65844, 65847, 65935, 65936, 65949, 65952,
    65953, 66000, 66046, 66176, 66205, 66208, 66257, 66272, 66300, 66304, 66340, 66349, 66379,
    66384, 66427, 66432, 66462, 66463, 66500, 66504, 66518, 66560, 66718, 66720, 66730, 66736,
    66772, 66776, 66812, 66816, 66856, 66864, 66916, 66927, 66939, 66940, 66955, 66956, 66963,
    66964, 66966, 66967, 66978, 66979, 66994, 66995, 67002, 67003, 67005, 67072, 67383, 67392,
    67414, 67424, 67432, 67456, 67462, 67463, 67505, 67506, 67515, 67871, 67872, 68097, 68100,
    68101, 68103, 68108, 68112, 68152, 68155, 68159, 68160, 68325, 68327, 68409, 68416, 68900,
    68904, 69291, 69293, 69373, 69376, 69446, 69457, 69488, 69514, 69632, 69710, 69714, 69750,
    69759, 69821, 69822, 69827, 69840, 69865, 69872, 69882, 69888, 69941, 69942, 69960, 69968,
    70007, 70016, 70112, 70113, 70133, 70144, 70162, 70163, 70210, 70272, 70279, 70280, 70281,
    70282, 70286, 70287, 70302, 70303, 70314, 70320, 70379, 70384, 70394, 70400, 70404, 70405,
    70413, 70415, 70417, 70419, 70441, 70442, 70449, 70450, 70452, 70453, 70458, 70459, 70469,
    70471, 70473, 70475, 70478, 70480, 70481, 70487, 70488, 70493, 70500, 70502, 70509, 70512,
    70517, 70656, 70748, 70749, 70754, 70784, 70856, 70864, 70874, 71040, 71094, 71096, 71134,
    71168, 71237, 71248, 71258, 71264, 71277, 71296, 71354, 71360, 71370, 71424, 71451, 71453,
    71468, 71472, 71495, 71680, 71740, 71840, 71923, 71935, 71943, 71945, 71946, 71948, 71956,
    71957, 71959, 71960, 71990, 71991, 71993, 71995, 72007, 72016, 72026, 72096, 72104, 72106,
    72152, 72154, 72165, 72192, 72264, 72272, 72355, 72368, 72441, 72448, 72458, 72704, 72713,
    72714, 72759, 72760, 72774, 72784, 72813, 72816, 72848, 72850, 72872, 72873, 72887, 72960,
    72967, 72968, 72970, 72971, 73015, 73018, 73019, 73020, 73022, 73023, 73032, 73040, 73050,
    73056, 73062, 73063, 73065, 73066, 73103, 73104, 73106, 73107, 73113, 73120, 73130, 73440,
    73465, 73472, 73489, 73490, 73531, 73534, 73562, 73648, 73649, 73664, 73714, 73727, 74650,
    74752, 74863, 74864, 74869, 74880, 75076, 77712, 77811, 77824, 78896, 78912, 78934, 82944,
    83527, 92160, 92729, 92736, 92767, 92768, 92778, 92782, 92863, 92864, 92874, 92880, 92910,
    92912, 92918, 92928, 92998, 93008, 93018, 93019, 93026, 93027, 93048, 93053, 93072, 93760,
    93851, 93952, 94027, 94031, 94088, 94095, 94112, 94176, 94181, 94192, 94194, 94208, 100344,
    100352, 101590, 101632, 101641, 110576, 110580, 110581, 110588, 110589, 110591, 110592,
    110883, 110898, 110899, 110928, 110931, 110933, 110934, 110948, 110952, 110960, 111356,
    113664, 113771, 113776, 113789, 113792, 113801, 113808, 113818, 113820, 113828, 118528,
    118574, 118576, 118599, 118608, 118724, 118784, 119030, 119040, 119079, 119081, 119155,
    119163, 119275, 119296, 119366, 119488, 119508, 119520, 119540, 119552, 119639, 119648,
    119673, 119808, 119893, 119894, 119965, 119966, 119968, 119970, 119971, 119973, 119975,
    119977, 119981, 119982, 119994, 119995, 119996, 119997, 120004, 120005, 120070, 120071,
    120075, 120077, 120085, 120086, 120093, 120094, 120122, 120123, 120127, 120128, 120133,
    120134, 120135, 120138, 120145, 120146, 120486, 120488, 120780, 120782, 121484, 121499,
    121504, 121505, 121520, 122624, 122655, 122661, 122667, 122880, 122887, 122888, 122905,
    122907, 122914, 122915, 122917, 122918, 122923, 122928, 122990, 123023, 123024, 123136,
    123181, 123184, 123198, 123200, 123210, 123214, 123216, 123536, 123567, 123584, 123642,
    123647, 123648, 124112, 124154, 124896, 124903, 124904, 124908, 124909, 124911, 124912,
    124927, 125136, 125143, 125252, 125259, 126704, 126706, 126976, 127020, 127024, 127124,
    127136, 127151, 127153, 127168, 127169, 127184, 127185, 127222, 127233, 127406, 127462,
    127491, 127504, 127548, 127552, 127561, 127568, 127570, 127584, 127590, 127744, 128728,
    128732, 128749, 128752, 128765, 128768, 128887, 128891, 128986, 128992, 129004, 129008,
    129009, 129024, 129036, 129040, 129096, 129104, 129114, 129120, 129160, 129168, 129198,
    129200, 129202, 129280, 129620, 129632, 129646, 129648, 129661, 129664, 129673, 129680,
    129726, 129727, 129734, 129742, 129756, 129760, 129769, 129776, 129785, 129792, 129939,
    129940, 129995, 130032, 130042, 131072, 173792, 173824, 177978, 177984, 178206, 178208,
    183970, 183984, 191457, 194560, 194664, 194665, 194676, 194677, 194847, 194848, 194911,
    194912, 195007, 195008, 195102, 196608, 201547, 201552, 205744, 917760, 918000]

/-- Boundaries of the code points that vanish. -/
def vanishing : Array Nat := #[
    173, 174, 847, 848, 6155, 6158, 6159, 6160, 8203, 8204, 8288, 8289, 8292, 8293, 65024, 65040,
    65279, 65280, 113824, 113828, 917760, 918000]

/-- Four numbers a run: its first and last code point, the step inside it, and what its first code
point becomes; the others follow in the same order. -/
def runs : Array Nat := #[
    178, 179, 1, 50, 192, 214, 1, 224, 216, 222, 1, 248, 256, 302, 2, 257, 308, 310, 2, 309, 313,
    317, 2, 314, 321, 327, 2, 322, 330, 374, 2, 331, 377, 381, 2, 378, 386, 388, 2, 387, 393, 394,
    1, 598, 416, 420, 2, 417, 433, 434, 1, 650, 435, 437, 2, 436, 461, 475, 2, 462, 478, 494, 2,
    479, 504, 542, 2, 505, 546, 562, 2, 547, 582, 590, 2, 583, 688, 690, 2, 104, 880, 882, 2, 881,
    904, 906, 1, 941, 910, 911, 1, 973, 913, 929, 1, 945, 931, 939, 1, 963, 984, 1006, 2, 985,
    1021, 1023, 1, 891, 1024, 1039, 1, 1104, 1040, 1071, 1, 1072, 1120, 1152, 2, 1121, 1162, 1214,
    2, 1163, 1217, 1229, 2, 1218, 1232, 1326, 2, 1233, 1329, 1366, 1, 1377, 5112, 5117, 1, 5104,
    7299, 7300, 1, 1089, 7312, 7354, 1, 4304, 7357, 7359, 1, 4349, 7470, 7472, 2, 98, 7473, 7481,
    2, 101, 7476, 7482, 2, 104, 7488, 7489, 1, 116, 7492, 7493, 1, 592, 7496, 7497, 1, 100, 7499,
    7500, 1, 603, 7504, 7506, 2, 109, 7508, 7509, 1, 7446, 7511, 7512, 1, 116, 7517, 7519, 1, 946,
    7520, 7521, 1, 966, 7524, 7525, 1, 117, 7526, 7527, 1, 946, 7529, 7530, 1, 966, 7588, 7590, 1,
    616, 7598, 7601, 1, 626, 7603, 7604, 1, 642, 7606, 7607, 1, 649, 7609, 7610, 1, 651, 7612,
    7614, 1, 656, 7680, 7828, 2, 7681, 7840, 7934, 2, 7841, 7944, 7951, 1, 7936, 7960, 7965, 1,
    7952, 7976, 7983, 1, 7968, 7992, 7999, 1, 7984, 8008, 8013, 1, 8000, 8025, 8031, 2, 8017,
    8040, 8047, 1, 8032, 8120, 8121, 1, 8112, 8136, 8138, 2, 8050, 8152, 8153, 1, 8144, 8168,
    8169, 1, 8160, 8185, 8187, 2, 972, 8308, 8313, 1, 52, 8317, 8318, 1, 40, 8320, 8329, 1, 48,
    8333, 8334, 1, 40, 8342, 8345, 1, 107, 8347, 8348, 1, 115, 8458, 8459, 1, 103, 8467, 8469, 2,
    108, 8473, 8475, 1, 112, 8492, 8493, 1, 98, 8496, 8497, 1, 101, 8518, 8519, 1, 100, 8520,
    8521, 1, 105, 8557, 8558, 1, 99, 8573, 8574, 1, 99, 9001, 9002, 1, 12296, 9312, 9320, 1, 49,
    9398, 9423, 1, 97, 9424, 9449, 1, 97, 11264, 11311, 1, 11312, 11367, 11371, 2, 11368, 11390,
    11391, 1, 575, 11392, 11490, 2, 11393, 11499, 11501, 2, 11500, 12345, 12346, 1, 21316, 12593,
    12594, 1, 4352, 12595, 12597, 2, 4522, 12599, 12601, 1, 4355, 12602, 12607, 1, 4528, 12609,
    12611, 1, 4358, 12613, 12622, 1, 4361, 12623, 12643, 1, 4449, 12645, 12646, 1, 4372, 12647,
    12648, 1, 4551, 12657, 12658, 1, 4381, 12660, 12661, 1, 4386, 12664, 12668, 1, 4395, 12674,
    12675, 1, 4593, 12676, 12678, 1, 4439, 12679, 12680, 1, 4484, 12682, 12683, 1, 4497, 12897,
    12898, 1, 4354, 12899, 12901, 1, 4357, 12903, 12904, 1, 4363, 12905, 12909, 1, 4366, 13012,
    13013, 1, 12458, 13028, 13033, 1, 12490, 13038, 13042, 1, 12510, 13045, 13050, 1, 12520,
    13051, 13054, 1, 12527, 42560, 42604, 2, 42561, 42624, 42650, 2, 42625, 42786, 42798, 2,
    42787, 42802, 42862, 2, 42803, 42873, 42875, 2, 42874, 42878, 42886, 2, 42879, 42896, 42898,
    2, 42897, 42902, 42920, 2, 42903, 42932, 42946, 2, 42933, 42951, 42953, 2, 42952, 42966,
    42968, 2, 42967, 43888, 43967, 1, 5024, 64082, 64083, 1, 31117, 65047, 65048, 1, 12310, 65077,
    65078, 1, 40, 65081, 65082, 1, 12308, 65083, 65084, 1, 12304, 65085, 65086, 1, 12298, 65087,
    65088, 1, 12296, 65089, 65092, 1, 12300, 65113, 65114, 1, 40, 65117, 65118, 1, 12308, 65121,
    65122, 1, 42, 65281, 65282, 1, 33, 65284, 65304, 2, 36, 65287, 65293, 2, 39, 65297, 65309, 2,
    49, 65313, 65338, 1, 97, 65343, 65371, 1, 95, 65373, 65374, 1, 125, 65375, 65376, 1, 10629,
    65378, 65379, 1, 12300, 65397, 65398, 1, 12458, 65413, 65418, 1, 12490, 65423, 65427, 1,
    12510, 65430, 65435, 1, 12520, 65438, 65439, 1, 12441, 65441, 65442, 1, 4352, 65443, 65445, 2,
    4522, 65447, 65449, 1, 4355, 65450, 65455, 1, 4528, 65457, 65459, 1, 4358, 65461, 65470, 1,
    4361, 65474, 65479, 1, 4449, 65482, 65487, 1, 4455, 65490, 65495, 1, 4461, 65498, 65500, 1,
    4467, 65504, 65505, 1, 162, 65513, 65516, 1, 8592, 66560, 66599, 1, 66600, 66736, 66771, 1,
    66776, 66928, 66964, 2, 66967, 66929, 66937, 2, 66968, 66941, 66953, 2, 66980, 66957, 66961,
    2, 66996, 67457, 67458, 1, 720, 67463, 67465, 2, 675, 67467, 67468, 1, 598, 67481, 67482, 1,
    682, 67491, 67492, 1, 630, 67496, 67497, 1, 637, 67507, 67508, 1, 673, 67510, 67512, 1, 448,
    71840, 71871, 1, 71872, 93760, 93791, 1, 93792, 119808, 119833, 1, 97, 119834, 119859, 1, 97,
    119860, 119885, 1, 97, 119886, 119910, 2, 97, 119887, 119891, 2, 98, 119895, 119911, 2, 106,
    119912, 119937, 1, 97, 119938, 119963, 1, 97, 119964, 119966, 2, 97, 119973, 119974, 1, 106,
    119977, 119980, 1, 110, 119982, 119989, 1, 115, 119990, 119993, 1, 97, 119995, 120015, 2, 102,
    119998, 120002, 2, 105, 120006, 120014, 2, 113, 120016, 120041, 1, 97, 120042, 120067, 1, 97,
    120068, 120069, 1, 97, 120071, 120074, 1, 100, 120077, 120084, 1, 106, 120086, 120092, 1, 115,
    120094, 120119, 1, 97, 120120, 120121, 1, 97, 120123, 120126, 1, 100, 120128, 120132, 1, 105,
    120138, 120144, 1, 115, 120146, 120171, 1, 97, 120172, 120197, 1, 97, 120198, 120223, 1, 97,
    120224, 120249, 1, 97, 120250, 120275, 1, 97, 120276, 120301, 1, 97, 120302, 120327, 1, 97,
    120328, 120353, 1, 97, 120354, 120379, 1, 97, 120380, 120405, 1, 97, 120406, 120431, 1, 97,
    120432, 120457, 1, 97, 120458, 120483, 1, 97, 120488, 120504, 1, 945, 120506, 120512, 1, 963,
    120514, 120530, 1, 945, 120532, 120538, 1, 963, 120546, 120562, 1, 945, 120564, 120570, 1,
    963, 120572, 120588, 1, 945, 120590, 120596, 1, 963, 120604, 120620, 1, 945, 120622, 120628,
    1, 963, 120630, 120646, 1, 945, 120648, 120654, 1, 963, 120662, 120678, 1, 945, 120680,
    120686, 1, 963, 120688, 120704, 1, 945, 120706, 120712, 1, 963, 120720, 120736, 1, 945,
    120738, 120744, 1, 963, 120746, 120762, 1, 945, 120764, 120770, 1, 963, 120782, 120791, 1, 48,
    120792, 120801, 1, 48, 120802, 120811, 1, 48, 120812, 120821, 1, 48, 120822, 120831, 1, 48,
    122928, 122936, 1, 1072, 122937, 122939, 1, 1082, 122940, 122950, 1, 1086, 122952, 122953, 1,
    1101, 122961, 122969, 1, 1072, 122970, 122971, 1, 1082, 122972, 122973, 1, 1086, 122975,
    122980, 1, 1091, 122981, 122982, 1, 1098, 127280, 127305, 1, 97, 130032, 130041, 1, 48,
    194601, 194602, 1, 21253, 194608, 194610, 2, 21373, 194683, 194685, 2, 138724, 194689, 194690,
    1, 24033, 194805, 194806, 1, 27578, 194885, 194886, 1, 30494, 195048, 195049, 1, 37591]

set_option maxRecDepth 20000 in
/-- Two numbers an entry: a code point, and what it becomes. -/
def singles : Array Nat := #[
    170, 97, 181, 956, 185, 49, 186, 111, 376, 255, 383, 115, 385, 595, 390, 596, 391, 392, 395,
    396, 398, 477, 399, 601, 400, 603, 401, 402, 403, 608, 404, 611, 406, 617, 407, 616, 408, 409,
    412, 623, 413, 626, 415, 629, 422, 640, 423, 424, 425, 643, 428, 429, 430, 648, 431, 432, 439,
    658, 440, 441, 444, 445, 500, 501, 502, 405, 503, 447, 544, 414, 570, 11365, 571, 572, 573,
    410, 574, 11366, 577, 578, 579, 384, 580, 649, 581, 652, 689, 614, 691, 114, 692, 633, 693,
    635, 694, 641, 695, 119, 696, 121, 736, 611, 737, 108, 738, 115, 739, 120, 740, 661, 835, 787,
    836, 769, 837, 953, 884, 697, 886, 887, 894, 59, 895, 1011, 902, 940, 903, 183, 908, 972, 975,
    983, 976, 946, 977, 952, 978, 965, 979, 973, 980, 971, 981, 966, 982, 960, 1008, 954, 1009,
    961, 1010, 963, 1012, 952, 1013, 949, 1015, 1016, 1017, 963, 1018, 1019, 3852, 3851, 4295,
    11559, 4301, 11565, 4348, 4316, 7296, 1074, 7297, 1076, 7298, 1086, 7301, 1090, 7302, 1098,
    7303, 1123, 7304, 42571, 7468, 97, 7469, 230, 7474, 477, 7484, 111, 7485, 547, 7486, 112,
    7487, 114, 7490, 119, 7491, 97, 7494, 7426, 7495, 98, 7498, 601, 7501, 103, 7503, 107, 7505,
    331, 7507, 596, 7510, 112, 7513, 7453, 7514, 623, 7515, 118, 7516, 7461, 7522, 105, 7523, 114,
    7528, 961, 7544, 1085, 7579, 594, 7580, 99, 7581, 597, 7582, 240, 7583, 604, 7584, 102, 7585,
    607, 7586, 609, 7587, 613, 7591, 7547, 7592, 669, 7593, 621, 7594, 7557, 7595, 671, 7596, 625,
    7597, 624, 7602, 632, 7605, 427, 7608, 7452, 7611, 122, 7615, 952, 7835, 7777, 8049, 940,
    8051, 941, 8053, 942, 8055, 943, 8057, 972, 8059, 973, 8061, 974, 8122, 8048, 8123, 940, 8126,
    953, 8137, 941, 8139, 942, 8147, 912, 8154, 8054, 8155, 943, 8163, 944, 8170, 8058, 8171, 973,
    8172, 8165, 8175, 96, 8184, 8056, 8186, 8060, 8209, 8208, 8304, 48, 8305, 105, 8314, 43, 8315,
    8722, 8316, 61, 8319, 110, 8330, 43, 8331, 8722, 8332, 61, 8336, 97, 8337, 101, 8338, 111,
    8339, 120, 8340, 601, 8341, 104, 8346, 112, 8450, 99, 8455, 603, 8460, 104, 8461, 104, 8462,
    104, 8463, 295, 8464, 105, 8465, 105, 8466, 108, 8476, 114, 8477, 114, 8484, 122, 8486, 969,
    8488, 122, 8490, 107, 8491, 229, 8495, 101, 8499, 109, 8500, 111, 8505, 105, 8508, 960, 8509,
    947, 8510, 947, 8511, 960, 8512, 8721, 8517, 100, 8544, 105, 8548, 118, 8553, 120, 8556, 108,
    8559, 109, 8560, 105, 8564, 118, 8569, 120, 8572, 108, 8575, 109, 9450, 48, 11360, 11361,
    11362, 619, 11363, 7549, 11364, 637, 11373, 593, 11374, 625, 11375, 592, 11376, 594, 11378,
    11379, 11381, 11382, 11388, 106, 11389, 118, 11506, 11507, 11631, 11617, 11935, 27597, 12019,
    40863, 12032, 19968, 12033, 20008, 12034, 20022, 12035, 20031, 12036, 20057, 12037, 20101,
    12038, 20108, 12039, 20128, 12040, 20154, 12041, 20799, 12042, 20837, 12043, 20843, 12044,
    20866, 12045, 20886, 12046, 20907, 12047, 20960, 12048, 20981, 12049, 20992, 12050, 21147,
    12051, 21241, 12052, 21269, 12053, 21274, 12054, 21304, 12055, 21313, 12056, 21340, 12057,
    21353, 12058, 21378, 12059, 21430, 12060, 21448, 12061, 21475, 12062, 22231, 12063, 22303,
    12064, 22763, 12065, 22786, 12066, 22794, 12067, 22805, 12068, 22823, 12069, 22899, 12070,
    23376, 12071, 23424, 12072, 23544, 12073, 23567, 12074, 23586, 12075, 23608, 12076, 23662,
    12077, 23665, 12078, 24027, 12079, 24037, 12080, 24049, 12081, 24062, 12082, 24178, 12083,
    24186, 12084, 24191, 12085, 24308, 12086, 24318, 12087, 24331, 12088, 24339, 12089, 24400,
    12090, 24417, 12091, 24435, 12092, 24515, 12093, 25096, 12094, 25142, 12095, 25163, 12096,
    25903, 12097, 25908, 12098, 25991, 12099, 26007, 12100, 26020, 12101, 26041, 12102, 26080,
    12103, 26085, 12104, 26352, 12105, 26376, 12106, 26408, 12107, 27424, 12108, 27490, 12109,
    27513, 12110, 27571, 12111, 27595, 12112, 27604, 12113, 27611, 12114, 27663, 12115, 27668,
    12116, 27700, 12117, 28779, 12118, 29226, 12119, 29238, 12120, 29243, 12121, 29247, 12122,
    29255, 12123, 29273, 12124, 29275, 12125, 29356, 12126, 29572, 12127, 29577, 12128, 29916,
    12129, 29926, 12130, 29976, 12131, 29983, 12132, 29992, 12133, 30000, 12134, 30091, 12135,
    30098, 12136, 30326, 12137, 30333, 12138, 30382, 12139, 30399, 12140, 30446, 12141, 30683,
    12142, 30690, 12143, 30707, 12144, 31034, 12145, 31160, 12146, 31166, 12147, 31348, 12148,
    31435, 12149, 31481, 12150, 31859, 12151, 31992, 12152, 32566, 12153, 32593, 12154, 32650,
    12155, 32701, 12156, 32769, 12157, 32780, 12158, 32786, 12159, 32819, 12160, 32895, 12161,
    32905, 12162, 33251, 12163, 33258, 12164, 33267, 12165, 33276, 12166, 33292, 12167, 33307,
    12168, 33311, 12169, 33390, 12170, 33394, 12171, 33400, 12172, 34381, 12173, 34411, 12174,
    34880, 12175, 34892, 12176, 34915, 12177, 35198, 12178, 35211, 12179, 35282, 12180, 35328,
    12181, 35895, 12182, 35910, 12183, 35925, 12184, 35960, 12185, 35997, 12186, 36196, 12187,
    36208, 12188, 36275, 12189, 36523, 12190, 36554, 12191, 36763, 12192, 36784, 12193, 36789,
    12194, 37009, 12195, 37193, 12196, 37318, 12197, 37324, 12198, 37329, 12199, 38263, 12200,
    38272, 12201, 38428, 12202, 38582, 12203, 38585, 12204, 38632, 12205, 38737, 12206, 38750,
    12207, 38754, 12208, 38761, 12209, 38859, 12210, 38893, 12211, 38899, 12212, 38913, 12213,
    39080, 12214, 39131, 12215, 39135, 12216, 39318, 12217, 39321, 12218, 39340, 12219, 39592,
    12220, 39640, 12221, 39647, 12222, 39717, 12223, 39727, 12224, 39730, 12225, 39740, 12226,
    39770, 12227, 40165, 12228, 40565, 12229, 40575, 12230, 40613, 12231, 40635, 12232, 40643,
    12233, 40653, 12234, 40657, 12235, 40697, 12236, 40701, 12237, 40718, 12238, 40723, 12239,
    40736, 12240, 40763, 12241, 40778, 12242, 40786, 12243, 40845, 12244, 40860, 12245, 40864,
    12290, 46, 12342, 12306, 12344, 21313, 12596, 4354, 12598, 4525, 12608, 4378, 12612, 4385,
    12649, 4556, 12650, 4558, 12651, 4563, 12652, 4567, 12653, 4569, 12654, 4380, 12655, 4573,
    12656, 4575, 12659, 4384, 12662, 4391, 12663, 4393, 12669, 4402, 12670, 4406, 12671, 4416,
    12672, 4423, 12673, 4428, 12681, 4488, 12684, 4500, 12685, 4510, 12686, 4513, 12690, 19968,
    12691, 20108, 12692, 19977, 12693, 22235, 12694, 19978, 12695, 20013, 12696, 19979, 12697,
    30002, 12698, 20057, 12699, 19993, 12700, 19969, 12701, 22825, 12702, 22320, 12703, 20154,
    12868, 21839, 12869, 24188, 12870, 25991, 12871, 31631, 12896, 4352, 12902, 4361, 12910,
    44032, 12911, 45208, 12912, 45796, 12913, 46972, 12914, 47560, 12915, 48148, 12916, 49324,
    12917, 50500, 12918, 51088, 12919, 52264, 12920, 52852, 12921, 53440, 12922, 54028, 12923,
    54616, 12926, 50864, 12928, 19968, 12929, 20108, 12930, 19977, 12931, 22235, 12932, 20116,
    12933, 20845, 12934, 19971, 12935, 20843, 12936, 20061, 12937, 21313, 12938, 26376, 12939,
    28779, 12940, 27700, 12941, 26408, 12942, 37329, 12943, 22303, 12944, 26085, 12945, 26666,
    12946, 26377, 12947, 31038, 12948, 21517, 12949, 29305, 12950, 36001, 12951, 31069, 12952,
    21172, 12953, 31192, 12954, 30007, 12955, 22899, 12956, 36969, 12957, 20778, 12958, 21360,
    12959, 27880, 12960, 38917, 12961, 20241, 12962, 20889, 12963, 27491, 12964, 19978, 12965,
    20013, 12966, 19979, 12967, 24038, 12968, 21491, 12969, 21307, 12970, 23447, 12971, 23398,
    12972, 30435, 12973, 20225, 12974, 36039, 12975, 21332, 12976, 22812, 13008, 12450, 13009,
    12452, 13010, 12454, 13011, 12456, 13014, 12461, 13015, 12463, 13016, 12465, 13017, 12467,
    13018, 12469, 13019, 12471, 13020, 12473, 13021, 12475, 13022, 12477, 13023, 12479, 13024,
    12481, 13025, 12484, 13026, 12486, 13027, 12488, 13034, 12498, 13035, 12501, 13036, 12504,
    13037, 12507, 13043, 12516, 13044, 12518, 42652, 1098, 42653, 1100, 42864, 42863, 42877, 7545,
    42891, 42892, 42893, 613, 42922, 614, 42923, 604, 42924, 609, 42925, 620, 42926, 618, 42928,
    670, 42929, 647, 42930, 669, 42931, 43859, 42948, 42900, 42949, 642, 42950, 7566, 42960,
    42961, 42994, 99, 42995, 102, 42996, 113, 42997, 42998, 43000, 295, 43001, 339, 43868, 42791,
    43869, 43831, 43870, 619, 43871, 43858, 43881, 653, 63744, 35912, 63745, 26356, 63746, 36554,
    63747, 36040, 63748, 28369, 63749, 20018, 63750, 21477, 63751, 40860, 63752, 40860, 63753,
    22865, 63754, 37329, 63755, 21895, 63756, 22856, 63757, 25078, 63758, 30313, 63759, 32645,
    63760, 34367, 63761, 34746, 63762, 35064, 63763, 37007, 63764, 27138, 63765, 27931, 63766,
    28889, 63767, 29662, 63768, 33853, 63769, 37226, 63770, 39409, 63771, 20098, 63772, 21365,
    63773, 27396, 63774, 29211, 63775, 34349, 63776, 40478, 63777, 23888, 63778, 28651, 63779,
    34253, 63780, 35172, 63781, 25289, 63782, 33240, 63783, 34847, 63784, 24266, 63785, 26391,
    63786, 28010, 63787, 29436, 63788, 37070, 63789, 20358, 63790, 20919, 63791, 21214, 63792,
    25796, 63793, 27347, 63794, 29200, 63795, 30439, 63796, 32769, 63797, 34310, 63798, 34396,
    63799, 36335, 63800, 38706, 63801, 39791, 63802, 40442, 63803, 30860, 63804, 31103, 63805,
    32160, 63806, 33737, 63807, 37636, 63808, 40575, 63809, 35542, 63810, 22751, 63811, 24324,
    63812, 31840, 63813, 32894, 63814, 29282, 63815, 30922, 63816, 36034, 63817, 38647, 63818,
    22744, 63819, 23650, 63820, 27155, 63821, 28122, 63822, 28431, 63823, 32047, 63824, 32311,
    63825, 38475, 63826, 21202, 63827, 32907, 63828, 20956, 63829, 20940, 63830, 31260, 63831,
    32190, 63832, 33777, 63833, 38517, 63834, 35712, 63835, 25295, 63836, 27138, 63837, 35582,
    63838, 20025, 63839, 23527, 63840, 24594, 63841, 29575, 63842, 30064, 63843, 21271, 63844,
    30971, 63845, 20415, 63846, 24489, 63847, 19981, 63848, 27852, 63849, 25976, 63850, 32034,
    63851, 21443, 63852, 22622, 63853, 30465, 63854, 33865, 63855, 35498, 63856, 27578, 63857,
    36784, 63858, 27784, 63859, 25342, 63860, 33509, 63861, 25504, 63862, 30053, 63863, 20142,
    63864, 20841, 63865, 20937, 63866, 26753, 63867, 31975, 63868, 33391, 63869, 35538, 63870,
    37327, 63871, 21237, 63872, 21570, 63873, 22899, 63874, 24300, 63875, 26053, 63876, 28670,
    63877, 31018, 63878, 38317, 63879, 39530, 63880, 40599, 63881, 40654, 63882, 21147, 63883,
    26310, 63884, 27511, 63885, 36706, 63886, 24180, 63887, 24976, 63888, 25088, 63889, 25754,
    63890, 28451, 63891, 29001, 63892, 29833, 63893, 31178, 63894, 32244, 63895, 32879, 63896,
    36646, 63897, 34030, 63898, 36899, 63899, 37706, 63900, 21015, 63901, 21155, 63902, 21693,
    63903, 28872, 63904, 35010, 63905, 35498, 63906, 24265, 63907, 24565, 63908, 25467, 63909,
    27566, 63910, 31806, 63911, 29557, 63912, 20196, 63913, 22265, 63914, 23527, 63915, 23994,
    63916, 24604, 63917, 29618, 63918, 29801, 63919, 32666, 63920, 32838, 63921, 37428, 63922,
    38646, 63923, 38728, 63924, 38936, 63925, 20363, 63926, 31150, 63927, 37300, 63928, 38584,
    63929, 24801, 63930, 20102, 63931, 20698, 63932, 23534, 63933, 23615, 63934, 26009, 63935,
    27138, 63936, 29134, 63937, 30274, 63938, 34044, 63939, 36988, 63940, 40845, 63941, 26248,
    63942, 38446, 63943, 21129, 63944, 26491, 63945, 26611, 63946, 27969, 63947, 28316, 63948,
    29705, 63949, 30041, 63950, 30827, 63951, 32016, 63952, 39006, 63953, 20845, 63954, 25134,
    63955, 38520, 63956, 20523, 63957, 23833, 63958, 28138, 63959, 36650, 63960, 24459, 63961,
    24900, 63962, 26647, 63963, 29575, 63964, 38534, 63965, 21033, 63966, 21519, 63967, 23653,
    63968, 26131, 63969, 26446, 63970, 26792, 63971, 27877, 63972, 29702, 63973, 30178, 63974,
    32633, 63975, 35023, 63976, 35041, 63977, 37324, 63978, 38626, 63979, 21311, 63980, 28346,
    63981, 21533, 63982, 29136, 63983, 29848, 63984, 34298, 63985, 38563, 63986, 40023, 63987,
    40607, 63988, 26519, 63989, 28107, 63990, 33256, 63991, 31435, 63992, 31520, 63993, 31890,
    63994, 29376, 63995, 28825, 63996, 35672, 63997, 20160, 63998, 33590, 63999, 21050, 64000,
    20999, 64001, 24230, 64002, 25299, 64003, 31958, 64004, 23429, 64005, 27934, 64006, 26292,
    64007, 36667, 64008, 34892, 64009, 38477, 64010, 35211, 64011, 24275, 64012, 20800, 64013,
    21952, 64016, 22618, 64018, 26228, 64021, 20958, 64022, 29482, 64023, 30410, 64024, 31036,
    64025, 31070, 64026, 31077, 64027, 31119, 64028, 38742, 64029, 31934, 64030, 32701, 64032,
    34322, 64034, 35576, 64037, 36920, 64038, 37117, 64042, 39151, 64043, 39164, 64044, 39208,
    64045, 40372, 64046, 37086, 64047, 38583, 64048, 20398, 64049, 20711, 64050, 20813, 64051,
    21193, 64052, 21220, 64053, 21329, 64054, 21917, 64055, 22022, 64056, 22120, 64057, 22592,
    64058, 22696, 64059, 23652, 64060, 23662, 64061, 24724, 64062, 24936, 64063, 24974, 64064,
    25074, 64065, 25935, 64066, 26082, 64067, 26257, 64068, 26757, 64069, 28023, 64070, 28186,
    64071, 28450, 64072, 29038, 64073, 29227, 64074, 29730, 64075, 30865, 64076, 31038, 64077,
    31049, 64078, 31048, 64079, 31056, 64080, 31062, 64081, 31069, 64084, 31296, 64085, 31361,
    64086, 31680, 64087, 32244, 64088, 32265, 64089, 32321, 64090, 32626, 64091, 32773, 64092,
    33261, 64093, 33401, 64094, 33401, 64095, 33879, 64096, 35088, 64097, 35222, 64098, 35585,
    64099, 35641, 64100, 36051, 64101, 36104, 64102, 36790, 64103, 36920, 64104, 38627, 64105,
    38911, 64106, 38971, 64107, 24693, 64108, 148206, 64109, 33304, 64112, 20006, 64113, 20917,
    64114, 20840, 64115, 20352, 64116, 20805, 64117, 20864, 64118, 21191, 64119, 21242, 64120,
    21917, 64121, 21845, 64122, 21913, 64123, 21986, 64124, 22618, 64125, 22707, 64126, 22852,
    64127, 22868, 64128, 23138, 64129, 23336, 64130, 24274, 64131, 24281, 64132, 24425, 64133,
    24493, 64134, 24792, 64135, 24910, 64136, 24840, 64137, 24974, 64138, 24928, 64139, 25074,
    64140, 25140, 64141, 25540, 64142, 25628, 64143, 25682, 64144, 25942, 64145, 26228, 64146,
    26391, 64147, 26395, 64148, 26454, 64149, 27513, 64150, 27578, 64151, 27969, 64152, 28379,
    64153, 28363, 64154, 28450, 64155, 28702, 64156, 29038, 64157, 30631, 64158, 29237, 64159,
    29359, 64160, 29482, 64161, 29809, 64162, 29958, 64163, 30011, 64164, 30237, 64165, 30239,
    64166, 30410, 64167, 30427, 64168, 30452, 64169, 30538, 64170, 30528, 64171, 30924, 64172,
    31409, 64173, 31680, 64174, 31867, 64175, 32091, 64176, 32244, 64177, 32574, 64178, 32773,
    64179, 33618, 64180, 33775, 64181, 34681, 64182, 35137, 64183, 35206, 64184, 35222, 64185,
    35519, 64186, 35576, 64187, 35531, 64188, 35585, 64189, 35582, 64190, 35565, 64191, 35641,
    64192, 35722, 64193, 36104, 64194, 36664, 64195, 36978, 64196, 37273, 64197, 37494, 64198,
    38524, 64199, 38627, 64200, 38742, 64201, 38875, 64202, 38911, 64203, 38923, 64204, 38971,
    64205, 39698, 64206, 40860, 64207, 141386, 64208, 141380, 64209, 144341, 64210, 15261, 64211,
    16408, 64212, 16441, 64213, 152137, 64214, 154832, 64215, 163539, 64216, 40771, 64217, 40846,
    64297, 43, 65040, 44, 65041, 12289, 65044, 59, 65045, 33, 65073, 8212, 65074, 8211, 65075, 95,
    65076, 95, 65079, 123, 65080, 125, 65101, 95, 65102, 95, 65103, 95, 65104, 44, 65105, 12289,
    65108, 59, 65111, 33, 65112, 8212, 65115, 123, 65116, 125, 65120, 38, 65123, 45, 65126, 61,
    65129, 36, 65377, 46, 65380, 12289, 65381, 12539, 65382, 12530, 65383, 12449, 65384, 12451,
    65385, 12453, 65386, 12455, 65387, 12457, 65388, 12515, 65389, 12517, 65390, 12519, 65391,
    12483, 65392, 12540, 65393, 12450, 65394, 12452, 65395, 12454, 65396, 12456, 65399, 12461,
    65400, 12463, 65401, 12465, 65402, 12467, 65403, 12469, 65404, 12471, 65405, 12473, 65406,
    12475, 65407, 12477, 65408, 12479, 65409, 12481, 65410, 12484, 65411, 12486, 65412, 12488,
    65419, 12498, 65420, 12501, 65421, 12504, 65422, 12507, 65428, 12516, 65429, 12518, 65436,
    12527, 65437, 12531, 65444, 4354, 65446, 4525, 65456, 4378, 65460, 4385, 65506, 172, 65508,
    166, 65509, 165, 65510, 8361, 65512, 9474, 65517, 9632, 65518, 9675, 66965, 67004, 67459, 230,
    67460, 665, 67461, 595, 67464, 43878, 67466, 676, 67469, 7569, 67470, 600, 67471, 606, 67472,
    681, 67473, 612, 67474, 610, 67475, 608, 67476, 667, 67477, 295, 67478, 668, 67479, 615,
    67480, 644, 67483, 620, 67484, 122628, 67485, 42894, 67486, 622, 67487, 122629, 67488, 654,
    67489, 122630, 67490, 248, 67493, 113, 67494, 634, 67495, 122632, 67498, 640, 67499, 680,
    67500, 678, 67501, 43879, 67502, 679, 67503, 648, 67504, 11377, 67506, 655, 67509, 664, 67513,
    122634, 67514, 122654, 119967, 100, 119970, 103, 120134, 111, 120484, 305, 120485, 567,
    120505, 952, 120513, 8711, 120531, 963, 120539, 8706, 120540, 949, 120541, 952, 120542, 954,
    120543, 966, 120544, 961, 120545, 960, 120563, 952, 120571, 8711, 120589, 963, 120597, 8706,
    120598, 949, 120599, 952, 120600, 954, 120601, 966, 120602, 961, 120603, 960, 120621, 952,
    120629, 8711, 120647, 963, 120655, 8706, 120656, 949, 120657, 952, 120658, 954, 120659, 966,
    120660, 961, 120661, 960, 120679, 952, 120687, 8711, 120705, 963, 120713, 8706, 120714, 949,
    120715, 952, 120716, 954, 120717, 966, 120718, 961, 120719, 960, 120737, 952, 120745, 8711,
    120763, 963, 120771, 8706, 120772, 949, 120773, 952, 120774, 954, 120775, 966, 120776, 961,
    120777, 960, 120778, 989, 120779, 989, 122951, 1099, 122954, 42633, 122955, 1241, 122956,
    1110, 122957, 1112, 122958, 1257, 122959, 1199, 122960, 1231, 122974, 1089, 122983, 1169,
    122984, 1110, 122985, 1109, 122986, 1119, 122987, 1195, 122988, 42577, 122989, 1201, 127275,
    99, 127276, 114, 127490, 12469, 127504, 25163, 127505, 23383, 127506, 21452, 127507, 12487,
    127508, 20108, 127509, 22810, 127510, 35299, 127511, 22825, 127512, 20132, 127513, 26144,
    127514, 28961, 127515, 26009, 127516, 21069, 127517, 24460, 127518, 20877, 127519, 26032,
    127520, 21021, 127521, 32066, 127522, 29983, 127523, 36009, 127524, 22768, 127525, 21561,
    127526, 28436, 127527, 25237, 127528, 25429, 127529, 19968, 127530, 19977, 127531, 36938,
    127532, 24038, 127533, 20013, 127534, 21491, 127535, 25351, 127536, 36208, 127537, 25171,
    127538, 31105, 127539, 31354, 127540, 21512, 127541, 28288, 127542, 26377, 127543, 26376,
    127544, 30003, 127545, 21106, 127546, 21942, 127547, 37197, 127568, 24471, 127569, 21487,
    194560, 20029, 194561, 20024, 194562, 20033, 194563, 131362, 194564, 20320, 194565, 20398,
    194566, 20411, 194567, 20482, 194568, 20602, 194569, 20633, 194570, 20711, 194571, 20687,
    194572, 13470, 194573, 132666, 194574, 20813, 194575, 20820, 194576, 20836, 194577, 20855,
    194578, 132380, 194579, 13497, 194580, 20839, 194581, 20877, 194582, 132427, 194583, 20887,
    194584, 20900, 194585, 20172, 194586, 20908, 194587, 20917, 194588, 168415, 194589, 20981,
    194590, 20995, 194591, 13535, 194592, 21051, 194593, 21062, 194594, 21106, 194595, 21111,
    194596, 13589, 194597, 21191, 194598, 21193, 194599, 21220, 194600, 21242, 194603, 21271,
    194604, 21321, 194605, 21329, 194606, 21338, 194607, 21363, 194609, 21375, 194611, 21375,
    194612, 133676, 194613, 28784, 194614, 21450, 194615, 21471, 194616, 133987, 194617, 21483,
    194618, 21489, 194619, 21510, 194620, 21662, 194621, 21560, 194622, 21576, 194623, 21608,
    194624, 21666, 194625, 21750, 194626, 21776, 194627, 21843, 194628, 21859, 194629, 21892,
    194630, 21892, 194631, 21913, 194632, 21931, 194633, 21939, 194634, 21954, 194635, 22294,
    194636, 22022, 194637, 22295, 194638, 22097, 194639, 22132, 194640, 20999, 194641, 22766,
    194642, 22478, 194643, 22516, 194644, 22541, 194645, 22411, 194646, 22578, 194647, 22577,
    194648, 22700, 194649, 136420, 194650, 22770, 194651, 22775, 194652, 22790, 194653, 22810,
    194654, 22818, 194655, 22882, 194656, 136872, 194657, 136938, 194658, 23020, 194659, 23067,
    194660, 23079, 194661, 23000, 194662, 23142, 194663, 14062, 194665, 23304, 194666, 23358,
    194667, 23358, 194668, 137672, 194669, 23491, 194670, 23512, 194671, 23527, 194672, 23539,
    194673, 138008, 194674, 23551, 194675, 23558, 194677, 23586, 194678, 14209, 194679, 23648,
    194680, 23662, 194681, 23744, 194682, 23693, 194684, 23875, 194686, 23918, 194687, 23915,
    194688, 23932, 194691, 14383, 194692, 24061, 194693, 24104, 194694, 24125, 194695, 24169,
    194696, 14434, 194697, 139651, 194698, 14460, 194699, 24240, 194700, 24243, 194701, 24246,
    194702, 24266, 194703, 172946, 194704, 24318, 194705, 140081, 194706, 140081, 194707, 33281,
    194708, 24354, 194709, 24354, 194710, 14535, 194711, 144056, 194712, 156122, 194713, 24418,
    194714, 24427, 194715, 14563, 194716, 24474, 194717, 24525, 194718, 24535, 194719, 24569,
    194720, 24705, 194721, 14650, 194722, 14620, 194723, 24724, 194724, 141012, 194725, 24775,
    194726, 24904, 194727, 24908, 194728, 24910, 194729, 24908, 194730, 24954, 194731, 24974,
    194732, 25010, 194733, 24996, 194734, 25007, 194735, 25054, 194736, 25074, 194737, 25078,
    194738, 25104, 194739, 25115, 194740, 25181, 194741, 25265, 194742, 25300, 194743, 25424,
    194744, 142092, 194745, 25405, 194746, 25340, 194747, 25448, 194748, 25475, 194749, 25572,
    194750, 142321, 194751, 25634, 194752, 25541, 194753, 25513, 194754, 14894, 194755, 25705,
    194756, 25726, 194757, 25757, 194758, 25719, 194759, 14956, 194760, 25935, 194761, 25964,
    194762, 143370, 194763, 26083, 194764, 26360, 194765, 26185, 194766, 15129, 194767, 26257,
    194768, 15112, 194769, 15076, 194770, 20882, 194771, 20885, 194772, 26368, 194773, 26268,
    194774, 32941, 194775, 17369, 194776, 26391, 194777, 26395, 194778, 26401, 194779, 26462,
    194780, 26451, 194781, 144323, 194782, 15177, 194783, 26618, 194784, 26501, 194785, 26706,
    194786, 26757, 194787, 144493, 194788, 26766, 194789, 26655, 194790, 26900, 194791, 15261,
    194792, 26946, 194793, 27043, 194794, 27114, 194795, 27304, 194796, 145059, 194797, 27355,
    194798, 15384, 194799, 27425, 194800, 145575, 194801, 27476, 194802, 15438, 194803, 27506,
    194804, 27551, 194807, 146061, 194808, 138507, 194809, 146170, 194810, 27726, 194811, 146620,
    194812, 27839, 194813, 27853, 194814, 27751, 194815, 27926, 194816, 27966, 194817, 28023,
    194818, 27969, 194819, 28009, 194820, 28024, 194821, 28037, 194822, 146718, 194823, 27956,
    194824, 28207, 194825, 28270, 194826, 15667, 194827, 28363, 194828, 28359, 194829, 147153,
    194830, 28153, 194831, 28526, 194832, 147294, 194833, 147342, 194834, 28614, 194835, 28729,
    194836, 28702, 194837, 28699, 194838, 15766, 194839, 28746, 194840, 28797, 194841, 28791,
    194842, 28845, 194843, 132389, 194844, 28997, 194845, 148067, 194846, 29084, 194848, 29224,
    194849, 29237, 194850, 29264, 194851, 149000, 194852, 29312, 194853, 29333, 194854, 149301,
    194855, 149524, 194856, 29562, 194857, 29579, 194858, 16044, 194859, 29605, 194860, 16056,
    194861, 16056, 194862, 29767, 194863, 29788, 194864, 29809, 194865, 29829, 194866, 29898,
    194867, 16155, 194868, 29988, 194869, 150582, 194870, 30014, 194871, 150674, 194872, 30064,
    194873, 139679, 194874, 30224, 194875, 151457, 194876, 151480, 194877, 151620, 194878, 16380,
    194879, 16392, 194880, 30452, 194881, 151795, 194882, 151794, 194883, 151833, 194884, 151859,
    194887, 30495, 194888, 30538, 194889, 16441, 194890, 30603, 194891, 16454, 194892, 16534,
    194893, 152605, 194894, 30798, 194895, 30860, 194896, 30924, 194897, 16611, 194898, 153126,
    194899, 31062, 194900, 153242, 194901, 153285, 194902, 31119, 194903, 31211, 194904, 16687,
    194905, 31296, 194906, 31306, 194907, 31311, 194908, 153980, 194909, 154279, 194910, 154279,
    194912, 16898, 194913, 154539, 194914, 31686, 194915, 31689, 194916, 16935, 194917, 154752,
    194918, 31954, 194919, 17056, 194920, 31976, 194921, 31971, 194922, 32000, 194923, 155526,
    194924, 32099, 194925, 17153, 194926, 32199, 194927, 32258, 194928, 32325, 194929, 17204,
    194930, 156200, 194931, 156231, 194932, 17241, 194933, 156377, 194934, 32634, 194935, 156478,
    194936, 32661, 194937, 32762, 194938, 32773, 194939, 156890, 194940, 156963, 194941, 32864,
    194942, 157096, 194943, 32880, 194944, 144223, 194945, 17365, 194946, 32946, 194947, 33027,
    194948, 17419, 194949, 33086, 194950, 23221, 194951, 157607, 194952, 157621, 194953, 144275,
    194954, 144284, 194955, 33281, 194956, 33284, 194957, 36766, 194958, 17515, 194959, 33425,
    194960, 33419, 194961, 33437, 194962, 21171, 194963, 33457, 194964, 33459, 194965, 33469,
    194966, 33510, 194967, 158524, 194968, 33509, 194969, 33565, 194970, 33635, 194971, 33709,
    194972, 33571, 194973, 33725, 194974, 33767, 194975, 33879, 194976, 33619, 194977, 33738,
    194978, 33740, 194979, 33756, 194980, 158774, 194981, 159083, 194982, 158933, 194983, 17707,
    194984, 34033, 194985, 34035, 194986, 34070, 194987, 160714, 194988, 34148, 194989, 159532,
    194990, 17757, 194991, 17761, 194992, 159665, 194993, 159954, 194994, 17771, 194995, 34384,
    194996, 34396, 194997, 34407, 194998, 34409, 194999, 34473, 195000, 34440, 195001, 34574,
    195002, 34530, 195003, 34681, 195004, 34600, 195005, 34667, 195006, 34694, 195008, 34785,
    195009, 34817, 195010, 17913, 195011, 34912, 195012, 34915, 195013, 161383, 195014, 35031,
    195015, 35038, 195016, 17973, 195017, 35066, 195018, 13499, 195019, 161966, 195020, 162150,
    195021, 18110, 195022, 18119, 195023, 35488, 195024, 35565, 195025, 35722, 195026, 35925,
    195027, 162984, 195028, 36011, 195029, 36033, 195030, 36123, 195031, 36215, 195032, 163631,
    195033, 133124, 195034, 36299, 195035, 36284, 195036, 36336, 195037, 133342, 195038, 36564,
    195039, 36664, 195040, 165330, 195041, 165357, 195042, 37012, 195043, 37105, 195044, 37137,
    195045, 165678, 195046, 37147, 195047, 37432, 195050, 37500, 195051, 37881, 195052, 37909,
    195053, 166906, 195054, 38283, 195055, 18837, 195056, 38327, 195057, 167287, 195058, 18918,
    195059, 38595, 195060, 23986, 195061, 38691, 195062, 168261, 195063, 168474, 195064, 19054,
    195065, 19062, 195066, 38880, 195067, 168970, 195068, 19122, 195069, 169110, 195070, 38923,
    195071, 38923, 195072, 38953, 195073, 169398, 195074, 39138, 195075, 19251, 195076, 39209,
    195077, 39335, 195078, 39362, 195079, 39422, 195080, 19406, 195081, 170800, 195082, 39698,
    195083, 40000, 195084, 40189, 195085, 19662, 195086, 19693, 195087, 40295, 195088, 172238,
    195089, 19704, 195090, 172293, 195091, 172558, 195092, 172689, 195093, 40635, 195094, 19798,
    195095, 40697, 195096, 40702, 195097, 40709, 195098, 40719, 195099, 40726, 195100, 40763,
    195101, 173568]

set_option maxRecDepth 20000 in
/-- A code point, the number of code points that it becomes, and those. -/
def expansions : Array Nat := #[
    188, 3, 49, 8260, 52, 189, 3, 49, 8260, 50, 190, 3, 51, 8260, 52, 304, 2, 105, 775, 306, 2,
    105, 106, 307, 2, 105, 106, 319, 2, 108, 183, 320, 2, 108, 183, 329, 2, 700, 110, 452, 2, 100,
    382, 453, 2, 100, 382, 454, 2, 100, 382, 455, 2, 108, 106, 456, 2, 108, 106, 457, 2, 108, 106,
    458, 2, 110, 106, 459, 2, 110, 106, 460, 2, 110, 106, 497, 2, 100, 122, 498, 2, 100, 122, 499,
    2, 100, 122, 768, 0, 769, 0, 770, 0, 771, 0, 772, 0, 774, 0, 775, 0, 776, 0, 777, 0, 778, 0,
    780, 0, 783, 0, 785, 0, 803, 0, 805, 0, 808, 0, 832, 0, 833, 0, 1415, 2, 1381, 1410, 2392, 2,
    2325, 2364, 2393, 2, 2326, 2364, 2394, 2, 2327, 2364, 2395, 2, 2332, 2364, 2396, 2, 2337,
    2364, 2397, 2, 2338, 2364, 2398, 2, 2347, 2364, 2399, 2, 2351, 2364, 2524, 2, 2465, 2492,
    2525, 2, 2466, 2492, 2527, 2, 2479, 2492, 2611, 2, 2610, 2620, 2614, 2, 2616, 2620, 2649, 2,
    2582, 2620, 2650, 2, 2583, 2620, 2651, 2, 2588, 2620, 2654, 2, 2603, 2620, 2908, 2, 2849,
    2876, 2909, 2, 2850, 2876, 3635, 2, 3661, 3634, 3763, 2, 3789, 3762, 3804, 2, 3755, 3737,
    3805, 2, 3755, 3745, 3907, 2, 3906, 4023, 3917, 2, 3916, 4023, 3922, 2, 3921, 4023, 3927, 2,
    3926, 4023, 3932, 2, 3931, 4023, 3945, 2, 3904, 4021, 3955, 2, 3953, 3954, 3957, 2, 3953,
    3956, 3958, 2, 4018, 3968, 3959, 3, 4018, 3953, 3968, 3960, 2, 4019, 3968, 3961, 3, 4019,
    3953, 3968, 3969, 2, 3953, 3968, 3987, 2, 3986, 4023, 3997, 2, 3996, 4023, 4002, 2, 4001,
    4023, 4007, 2, 4006, 4023, 4012, 2, 4011, 4023, 4025, 2, 3984, 4021, 7834, 2, 97, 702, 7838,
    2, 115, 115, 8064, 2, 7936, 953, 8065, 2, 7937, 953, 8066, 2, 7938, 953, 8067, 2, 7939, 953,
    8068, 2, 7940, 953, 8069, 2, 7941, 953, 8070, 2, 7942, 953, 8071, 2, 7943, 953, 8072, 2, 7936,
    953, 8073, 2, 7937, 953, 8074, 2, 7938, 953, 8075, 2, 7939, 953, 8076, 2, 7940, 953, 8077, 2,
    7941, 953, 8078, 2, 7942, 953, 8079, 2, 7943, 953, 8080, 2, 7968, 953, 8081, 2, 7969, 953,
    8082, 2, 7970, 953, 8083, 2, 7971, 953, 8084, 2, 7972, 953, 8085, 2, 7973, 953, 8086, 2, 7974,
    953, 8087, 2, 7975, 953, 8088, 2, 7968, 953, 8089, 2, 7969, 953, 8090, 2, 7970, 953, 8091, 2,
    7971, 953, 8092, 2, 7972, 953, 8093, 2, 7973, 953, 8094, 2, 7974, 953, 8095, 2, 7975, 953,
    8096, 2, 8032, 953, 8097, 2, 8033, 953, 8098, 2, 8034, 953, 8099, 2, 8035, 953, 8100, 2, 8036,
    953, 8101, 2, 8037, 953, 8102, 2, 8038, 953, 8103, 2, 8039, 953, 8104, 2, 8032, 953, 8105, 2,
    8033, 953, 8106, 2, 8034, 953, 8107, 2, 8035, 953, 8108, 2, 8036, 953, 8109, 2, 8037, 953,
    8110, 2, 8038, 953, 8111, 2, 8039, 953, 8114, 2, 8048, 953, 8115, 2, 945, 953, 8116, 2, 940,
    953, 8119, 2, 8118, 953, 8124, 2, 945, 953, 8130, 2, 8052, 953, 8131, 2, 951, 953, 8132, 2,
    942, 953, 8135, 2, 8134, 953, 8140, 2, 951, 953, 8178, 2, 8060, 953, 8179, 2, 969, 953, 8180,
    2, 974, 953, 8183, 2, 8182, 953, 8188, 2, 969, 953, 8243, 2, 8242, 8242, 8244, 3, 8242, 8242,
    8242, 8246, 2, 8245, 8245, 8247, 3, 8245, 8245, 8245, 8252, 2, 33, 33, 8279, 4, 8242, 8242,
    8242, 8242, 8360, 2, 114, 115, 8451, 2, 176, 99, 8457, 2, 176, 102, 8470, 2, 110, 111, 8480,
    2, 115, 109, 8481, 3, 116, 101, 108, 8482, 2, 116, 109, 8507, 3, 102, 97, 120, 8528, 3, 49,
    8260, 55, 8529, 3, 49, 8260, 57, 8530, 4, 49, 8260, 49, 48, 8531, 3, 49, 8260, 51, 8532, 3,
    50, 8260, 51, 8533, 3, 49, 8260, 53, 8534, 3, 50, 8260, 53, 8535, 3, 51, 8260, 53, 8536, 3,
    52, 8260, 53, 8537, 3, 49, 8260, 54, 8538, 3, 53, 8260, 54, 8539, 3, 49, 8260, 56, 8540, 3,
    51, 8260, 56, 8541, 3, 53, 8260, 56, 8542, 3, 55, 8260, 56, 8543, 2, 49, 8260, 8545, 2, 105,
    105, 8546, 3, 105, 105, 105, 8547, 2, 105, 118, 8549, 2, 118, 105, 8550, 3, 118, 105, 105,
    8551, 4, 118, 105, 105, 105, 8552, 2, 105, 120, 8554, 2, 120, 105, 8555, 3, 120, 105, 105,
    8561, 2, 105, 105, 8562, 3, 105, 105, 105, 8563, 2, 105, 118, 8565, 2, 118, 105, 8566, 3, 118,
    105, 105, 8567, 4, 118, 105, 105, 105, 8568, 2, 105, 120, 8570, 2, 120, 105, 8571, 3, 120,
    105, 105, 8585, 3, 48, 8260, 51, 8748, 2, 8747, 8747, 8749, 3, 8747, 8747, 8747, 8751, 2,
    8750, 8750, 8752, 3, 8750, 8750, 8750, 9321, 2, 49, 48, 9322, 2, 49, 49, 9323, 2, 49, 50,
    9324, 2, 49, 51, 9325, 2, 49, 52, 9326, 2, 49, 53, 9327, 2, 49, 54, 9328, 2, 49, 55, 9329, 2,
    49, 56, 9330, 2, 49, 57, 9331, 2, 50, 48, 9332, 3, 40, 49, 41, 9333, 3, 40, 50, 41, 9334, 3,
    40, 51, 41, 9335, 3, 40, 52, 41, 9336, 3, 40, 53, 41, 9337, 3, 40, 54, 41, 9338, 3, 40, 55,
    41, 9339, 3, 40, 56, 41, 9340, 3, 40, 57, 41, 9341, 4, 40, 49, 48, 41, 9342, 4, 40, 49, 49,
    41, 9343, 4, 40, 49, 50, 41, 9344, 4, 40, 49, 51, 41, 9345, 4, 40, 49, 52, 41, 9346, 4, 40,
    49, 53, 41, 9347, 4, 40, 49, 54, 41, 9348, 4, 40, 49, 55, 41, 9349, 4, 40, 49, 56, 41, 9350,
    4, 40, 49, 57, 41, 9351, 4, 40, 50, 48, 41, 9372, 3, 40, 97, 41, 9373, 3, 40, 98, 41, 9374, 3,
    40, 99, 41, 9375, 3, 40, 100, 41, 9376, 3, 40, 101, 41, 9377, 3, 40, 102, 41, 9378, 3, 40,
    103, 41, 9379, 3, 40, 104, 41, 9380, 3, 40, 105, 41, 9381, 3, 40, 106, 41, 9382, 3, 40, 107,
    41, 9383, 3, 40, 108, 41, 9384, 3, 40, 109, 41, 9385, 3, 40, 110, 41, 9386, 3, 40, 111, 41,
    9387, 3, 40, 112, 41, 9388, 3, 40, 113, 41, 9389, 3, 40, 114, 41, 9390, 3, 40, 115, 41, 9391,
    3, 40, 116, 41, 9392, 3, 40, 117, 41, 9393, 3, 40, 118, 41, 9394, 3, 40, 119, 41, 9395, 3, 40,
    120, 41, 9396, 3, 40, 121, 41, 9397, 3, 40, 122, 41, 10764, 4, 8747, 8747, 8747, 8747, 10869,
    2, 61, 61, 10870, 3, 61, 61, 61, 10972, 2, 10973, 824, 12447, 2, 12424, 12426, 12543, 2,
    12467, 12488, 12800, 3, 40, 4352, 41, 12801, 3, 40, 4354, 41, 12802, 3, 40, 4355, 41, 12803,
    3, 40, 4357, 41, 12804, 3, 40, 4358, 41, 12805, 3, 40, 4359, 41, 12806, 3, 40, 4361, 41,
    12807, 3, 40, 4363, 41, 12808, 3, 40, 4364, 41, 12809, 3, 40, 4366, 41, 12810, 3, 40, 4367,
    41, 12811, 3, 40, 4368, 41, 12812, 3, 40, 4369, 41, 12813, 3, 40, 4370, 41, 12814, 3, 40,
    44032, 41, 12815, 3, 40, 45208, 41, 12816, 3, 40, 45796, 41, 12817, 3, 40, 46972, 41, 12818,
    3, 40, 47560, 41, 12819, 3, 40, 48148, 41, 12820, 3, 40, 49324, 41, 12821, 3, 40, 50500, 41,
    12822, 3, 40, 51088, 41, 12823, 3, 40, 52264, 41, 12824, 3, 40, 52852, 41, 12825, 3, 40,
    53440, 41, 12826, 3, 40, 54028, 41, 12827, 3, 40, 54616, 41, 12828, 3, 40, 51452, 41, 12829,
    4, 40, 50724, 51204, 41, 12830, 4, 40, 50724, 54980, 41, 12832, 3, 40, 19968, 41, 12833, 3,
    40, 20108, 41, 12834, 3, 40, 19977, 41, 12835, 3, 40, 22235, 41, 12836, 3, 40, 20116, 41,
    12837, 3, 40, 20845, 41, 12838, 3, 40, 19971, 41, 12839, 3, 40, 20843, 41, 12840, 3, 40,
    20061, 41, 12841, 3, 40, 21313, 41, 12842, 3, 40, 26376, 41, 12843, 3, 40, 28779, 41, 12844,
    3, 40, 27700, 41, 12845, 3, 40, 26408, 41, 12846, 3, 40, 37329, 41, 12847, 3, 40, 22303, 41,
    12848, 3, 40, 26085, 41, 12849, 3, 40, 26666, 41, 12850, 3, 40, 26377, 41, 12851, 3, 40,
    31038, 41, 12852, 3, 40, 21517, 41, 12853, 3, 40, 29305, 41, 12854, 3, 40, 36001, 41, 12855,
    3, 40, 31069, 41, 12856, 3, 40, 21172, 41, 12857, 3, 40, 20195, 41, 12858, 3, 40, 21628, 41,
    12859, 3, 40, 23398, 41, 12860, 3, 40, 30435, 41, 12861, 3, 40, 20225, 41, 12862, 3, 40,
    36039, 41, 12863, 3, 40, 21332, 41, 12864, 3, 40, 31085, 41, 12865, 3, 40, 20241, 41, 12866,
    3, 40, 33258, 41, 12867, 3, 40, 33267, 41, 12880, 3, 112, 116, 101, 12881, 2, 50, 49, 12882,
    2, 50, 50, 12883, 2, 50, 51, 12884, 2, 50, 52, 12885, 2, 50, 53, 12886, 2, 50, 54, 12887, 2,
    50, 55, 12888, 2, 50, 56, 12889, 2, 50, 57, 12890, 2, 51, 48, 12891, 2, 51, 49, 12892, 2, 51,
    50, 12893, 2, 51, 51, 12894, 2, 51, 52, 12895, 2, 51, 53, 12924, 2, 52280, 44256, 12925, 2,
    51452, 51032, 12977, 2, 51, 54, 12978, 2, 51, 55, 12979, 2, 51, 56, 12980, 2, 51, 57, 12981,
    2, 52, 48, 12982, 2, 52, 49, 12983, 2, 52, 50, 12984, 2, 52, 51, 12985, 2, 52, 52, 12986, 2,
    52, 53, 12987, 2, 52, 54, 12988, 2, 52, 55, 12989, 2, 52, 56, 12990, 2, 52, 57, 12991, 2, 53,
    48, 12992, 2, 49, 26376, 12993, 2, 50, 26376, 12994, 2, 51, 26376, 12995, 2, 52, 26376, 12996,
    2, 53, 26376, 12997, 2, 54, 26376, 12998, 2, 55, 26376, 12999, 2, 56, 26376, 13000, 2, 57,
    26376, 13001, 3, 49, 48, 26376, 13002, 3, 49, 49, 26376, 13003, 3, 49, 50, 26376, 13004, 2,
    104, 103, 13005, 3, 101, 114, 103, 13006, 2, 101, 118, 13007, 3, 108, 116, 100, 13055, 2,
    20196, 21644, 13056, 4, 12450, 12497, 12540, 12488, 13057, 4, 12450, 12523, 12501, 12449,
    13058, 4, 12450, 12531, 12506, 12450, 13059, 3, 12450, 12540, 12523, 13060, 4, 12452, 12491,
    12531, 12464, 13061, 3, 12452, 12531, 12481, 13062, 3, 12454, 12457, 12531, 13063, 5, 12456,
    12473, 12463, 12540, 12489, 13064, 4, 12456, 12540, 12459, 12540, 13065, 3, 12458, 12531,
    12473, 13066, 3, 12458, 12540, 12512, 13067, 3, 12459, 12452, 12522, 13068, 4, 12459, 12521,
    12483, 12488, 13069, 4, 12459, 12525, 12522, 12540, 13070, 3, 12460, 12525, 12531, 13071, 3,
    12460, 12531, 12510, 13072, 2, 12462, 12460, 13073, 3, 12462, 12491, 12540, 13074, 4, 12461,
    12517, 12522, 12540, 13075, 4, 12462, 12523, 12480, 12540, 13076, 2, 12461, 12525, 13077, 5,
    12461, 12525, 12464, 12521, 12512, 13078, 6, 12461, 12525, 12513, 12540, 12488, 12523, 13079,
    5, 12461, 12525, 12527, 12483, 12488, 13080, 3, 12464, 12521, 12512, 13081, 5, 12464, 12521,
    12512, 12488, 12531, 13082, 5, 12463, 12523, 12476, 12452, 12525, 13083, 4, 12463, 12525,
    12540, 12493, 13084, 3, 12465, 12540, 12473, 13085, 3, 12467, 12523, 12490, 13086, 3, 12467,
    12540, 12509, 13087, 4, 12469, 12452, 12463, 12523, 13088, 5, 12469, 12531, 12481, 12540,
    12512, 13089, 4, 12471, 12522, 12531, 12464, 13090, 3, 12475, 12531, 12481, 13091, 3, 12475,
    12531, 12488, 13092, 3, 12480, 12540, 12473, 13093, 2, 12487, 12471, 13094, 2, 12489, 12523,
    13095, 2, 12488, 12531, 13096, 2, 12490, 12494, 13097, 3, 12494, 12483, 12488, 13098, 3,
    12495, 12452, 12484, 13099, 5, 12497, 12540, 12475, 12531, 12488, 13100, 3, 12497, 12540,
    12484, 13101, 4, 12496, 12540, 12524, 12523, 13102, 5, 12500, 12450, 12473, 12488, 12523,
    13103, 3, 12500, 12463, 12523, 13104, 2, 12500, 12467, 13105, 2, 12499, 12523, 13106, 5,
    12501, 12449, 12521, 12483, 12489, 13107, 4, 12501, 12451, 12540, 12488, 13108, 5, 12502,
    12483, 12471, 12455, 12523, 13109, 3, 12501, 12521, 12531, 13110, 5, 12504, 12463, 12479,
    12540, 12523, 13111, 2, 12506, 12477, 13112, 3, 12506, 12491, 12498, 13113, 3, 12504, 12523,
    12484, 13114, 3, 12506, 12531, 12473, 13115, 3, 12506, 12540, 12472, 13116, 3, 12505, 12540,
    12479, 13117, 4, 12509, 12452, 12531, 12488, 13118, 3, 12508, 12523, 12488, 13119, 2, 12507,
    12531, 13120, 3, 12509, 12531, 12489, 13121, 3, 12507, 12540, 12523, 13122, 3, 12507, 12540,
    12531, 13123, 4, 12510, 12452, 12463, 12525, 13124, 3, 12510, 12452, 12523, 13125, 3, 12510,
    12483, 12495, 13126, 3, 12510, 12523, 12463, 13127, 5, 12510, 12531, 12471, 12519, 12531,
    13128, 4, 12511, 12463, 12525, 12531, 13129, 2, 12511, 12522, 13130, 5, 12511, 12522, 12496,
    12540, 12523, 13131, 2, 12513, 12460, 13132, 4, 12513, 12460, 12488, 12531, 13133, 4, 12513,
    12540, 12488, 12523, 13134, 3, 12516, 12540, 12489, 13135, 3, 12516, 12540, 12523, 13136, 3,
    12518, 12450, 12531, 13137, 4, 12522, 12483, 12488, 12523, 13138, 2, 12522, 12521, 13139, 3,
    12523, 12500, 12540, 13140, 4, 12523, 12540, 12502, 12523, 13141, 2, 12524, 12512, 13142, 5,
    12524, 12531, 12488, 12466, 12531, 13143, 3, 12527, 12483, 12488, 13144, 2, 48, 28857, 13145,
    2, 49, 28857, 13146, 2, 50, 28857, 13147, 2, 51, 28857, 13148, 2, 52, 28857, 13149, 2, 53,
    28857, 13150, 2, 54, 28857, 13151, 2, 55, 28857, 13152, 2, 56, 28857, 13153, 2, 57, 28857,
    13154, 3, 49, 48, 28857, 13155, 3, 49, 49, 28857, 13156, 3, 49, 50, 28857, 13157, 3, 49, 51,
    28857, 13158, 3, 49, 52, 28857, 13159, 3, 49, 53, 28857, 13160, 3, 49, 54, 28857, 13161, 3,
    49, 55, 28857, 13162, 3, 49, 56, 28857, 13163, 3, 49, 57, 28857, 13164, 3, 50, 48, 28857,
    13165, 3, 50, 49, 28857, 13166, 3, 50, 50, 28857, 13167, 3, 50, 51, 28857, 13168, 3, 50, 52,
    28857, 13169, 3, 104, 112, 97, 13170, 2, 100, 97, 13171, 2, 97, 117, 13172, 3, 98, 97, 114,
    13173, 2, 111, 118, 13174, 2, 112, 99, 13175, 2, 100, 109, 13176, 3, 100, 109, 50, 13177, 3,
    100, 109, 51, 13178, 2, 105, 117, 13179, 2, 24179, 25104, 13180, 2, 26157, 21644, 13181, 2,
    22823, 27491, 13182, 2, 26126, 27835, 13183, 4, 26666, 24335, 20250, 31038, 13184, 2, 112, 97,
    13185, 2, 110, 97, 13186, 2, 956, 97, 13187, 2, 109, 97, 13188, 2, 107, 97, 13189, 2, 107, 98,
    13190, 2, 109, 98, 13191, 2, 103, 98, 13192, 3, 99, 97, 108, 13193, 4, 107, 99, 97, 108,
    13194, 2, 112, 102, 13195, 2, 110, 102, 13196, 2, 956, 102, 13197, 2, 956, 103, 13198, 2, 109,
    103, 13199, 2, 107, 103, 13200, 2, 104, 122, 13201, 3, 107, 104, 122, 13202, 3, 109, 104, 122,
    13203, 3, 103, 104, 122, 13204, 3, 116, 104, 122, 13205, 2, 956, 108, 13206, 2, 109, 108,
    13207, 2, 100, 108, 13208, 2, 107, 108, 13209, 2, 102, 109, 13210, 2, 110, 109, 13211, 2, 956,
    109, 13212, 2, 109, 109, 13213, 2, 99, 109, 13214, 2, 107, 109, 13215, 3, 109, 109, 50, 13216,
    3, 99, 109, 50, 13217, 2, 109, 50, 13218, 3, 107, 109, 50, 13219, 3, 109, 109, 51, 13220, 3,
    99, 109, 51, 13221, 2, 109, 51, 13222, 3, 107, 109, 51, 13223, 3, 109, 8725, 115, 13224, 4,
    109, 8725, 115, 50, 13225, 2, 112, 97, 13226, 3, 107, 112, 97, 13227, 3, 109, 112, 97, 13228,
    3, 103, 112, 97, 13229, 3, 114, 97, 100, 13230, 5, 114, 97, 100, 8725, 115, 13231, 6, 114, 97,
    100, 8725, 115, 50, 13232, 2, 112, 115, 13233, 2, 110, 115, 13234, 2, 956, 115, 13235, 2, 109,
    115, 13236, 2, 112, 118, 13237, 2, 110, 118, 13238, 2, 956, 118, 13239, 2, 109, 118, 13240, 2,
    107, 118, 13241, 2, 109, 118, 13242, 2, 112, 119, 13243, 2, 110, 119, 13244, 2, 956, 119,
    13245, 2, 109, 119, 13246, 2, 107, 119, 13247, 2, 109, 119, 13248, 2, 107, 969, 13249, 2, 109,
    969, 13251, 2, 98, 113, 13252, 2, 99, 99, 13253, 2, 99, 100, 13254, 4, 99, 8725, 107, 103,
    13256, 2, 100, 98, 13257, 2, 103, 121, 13258, 2, 104, 97, 13259, 2, 104, 112, 13260, 2, 105,
    110, 13261, 2, 107, 107, 13262, 2, 107, 109, 13263, 2, 107, 116, 13264, 2, 108, 109, 13265, 2,
    108, 110, 13266, 3, 108, 111, 103, 13267, 2, 108, 120, 13268, 2, 109, 98, 13269, 3, 109, 105,
    108, 13270, 3, 109, 111, 108, 13271, 2, 112, 104, 13273, 3, 112, 112, 109, 13274, 2, 112, 114,
    13275, 2, 115, 114, 13276, 2, 115, 118, 13277, 2, 119, 98, 13278, 3, 118, 8725, 109, 13279, 3,
    97, 8725, 109, 13280, 2, 49, 26085, 13281, 2, 50, 26085, 13282, 2, 51, 26085, 13283, 2, 52,
    26085, 13284, 2, 53, 26085, 13285, 2, 54, 26085, 13286, 2, 55, 26085, 13287, 2, 56, 26085,
    13288, 2, 57, 26085, 13289, 3, 49, 48, 26085, 13290, 3, 49, 49, 26085, 13291, 3, 49, 50,
    26085, 13292, 3, 49, 51, 26085, 13293, 3, 49, 52, 26085, 13294, 3, 49, 53, 26085, 13295, 3,
    49, 54, 26085, 13296, 3, 49, 55, 26085, 13297, 3, 49, 56, 26085, 13298, 3, 49, 57, 26085,
    13299, 3, 50, 48, 26085, 13300, 3, 50, 49, 26085, 13301, 3, 50, 50, 26085, 13302, 3, 50, 51,
    26085, 13303, 3, 50, 52, 26085, 13304, 3, 50, 53, 26085, 13305, 3, 50, 54, 26085, 13306, 3,
    50, 55, 26085, 13307, 3, 50, 56, 26085, 13308, 3, 50, 57, 26085, 13309, 3, 51, 48, 26085,
    13310, 3, 51, 49, 26085, 13311, 3, 103, 97, 108, 64256, 2, 102, 102, 64257, 2, 102, 105,
    64258, 2, 102, 108, 64259, 3, 102, 102, 105, 64260, 3, 102, 102, 108, 64261, 2, 115, 116,
    64262, 2, 115, 116, 64275, 2, 1396, 1398, 64276, 2, 1396, 1381, 64277, 2, 1396, 1387, 64278,
    2, 1406, 1398, 64279, 2, 1396, 1389, 119134, 2, 119127, 119141, 119135, 2, 119128, 119141,
    119136, 3, 119128, 119141, 119150, 119137, 3, 119128, 119141, 119151, 119138, 3, 119128,
    119141, 119152, 119139, 3, 119128, 119141, 119153, 119140, 3, 119128, 119141, 119154, 119227,
    2, 119225, 119141, 119228, 2, 119226, 119141, 119229, 3, 119225, 119141, 119150, 119230, 3,
    119226, 119141, 119150, 119231, 3, 119225, 119141, 119151, 119232, 3, 119226, 119141, 119151,
    127233, 2, 48, 44, 127234, 2, 49, 44, 127235, 2, 50, 44, 127236, 2, 51, 44, 127237, 2, 52, 44,
    127238, 2, 53, 44, 127239, 2, 54, 44, 127240, 2, 55, 44, 127241, 2, 56, 44, 127242, 2, 57, 44,
    127248, 3, 40, 97, 41, 127249, 3, 40, 98, 41, 127250, 3, 40, 99, 41, 127251, 3, 40, 100, 41,
    127252, 3, 40, 101, 41, 127253, 3, 40, 102, 41, 127254, 3, 40, 103, 41, 127255, 3, 40, 104,
    41, 127256, 3, 40, 105, 41, 127257, 3, 40, 106, 41, 127258, 3, 40, 107, 41, 127259, 3, 40,
    108, 41, 127260, 3, 40, 109, 41, 127261, 3, 40, 110, 41, 127262, 3, 40, 111, 41, 127263, 3,
    40, 112, 41, 127264, 3, 40, 113, 41, 127265, 3, 40, 114, 41, 127266, 3, 40, 115, 41, 127267,
    3, 40, 116, 41, 127268, 3, 40, 117, 41, 127269, 3, 40, 118, 41, 127270, 3, 40, 119, 41,
    127271, 3, 40, 120, 41, 127272, 3, 40, 121, 41, 127273, 3, 40, 122, 41, 127274, 3, 12308, 115,
    12309, 127277, 2, 99, 100, 127278, 2, 119, 122, 127306, 2, 104, 118, 127307, 2, 109, 118,
    127308, 2, 115, 100, 127309, 2, 115, 115, 127310, 3, 112, 112, 118, 127311, 2, 119, 99,
    127338, 2, 109, 99, 127339, 2, 109, 100, 127340, 2, 109, 114, 127376, 2, 100, 106, 127488, 2,
    12411, 12363, 127489, 2, 12467, 12467, 127552, 3, 12308, 26412, 12309, 127553, 3, 12308,
    19977, 12309, 127554, 3, 12308, 20108, 12309, 127555, 3, 12308, 23433, 12309, 127556, 3,
    12308, 28857, 12309, 127557, 3, 12308, 25171, 12309, 127558, 3, 12308, 30423, 12309, 127559,
    3, 12308, 21213, 12309, 127560, 3, 12308, 25943, 12309]

def findRun (code : Nat) : List Nat → Option Nat
  | first :: last :: step :: target :: rest =>
    if first ≤ code ∧ code ≤ last ∧ (code - first) % step = 0 then some (target + (code - first))
    else findRun code rest
  | _ => none

def findSingle (code : Nat) : List Nat → Option Nat
  | source :: target :: rest => if source = code then some target else findSingle code rest
  | _ => none

def findExpansion (code : Nat) : List Nat → Option (List Nat)
  | source :: count :: rest =>
    if source = code then some (rest.take count) else findExpansion code (rest.drop count)
  | _ => none
termination_by l => l.length
decreasing_by simp; omega

/-- What a character beyond ASCII becomes; none when it is not allowed. -/
def fold? (c : Char) : Option (List Char) :=
  let code := c.toNat
  if Text.Printable.insideRuns disallowed code then none
  else if Text.Printable.insideRuns vanishing code then some []
  else match findRun code runs.toList with
    | some target => some [Char.ofNat target]
    | none =>
      match findSingle code singles.toList with
      | some target => some [Char.ofNat target]
      | none =>
        match findExpansion code expansions.toList with
        | some targets => some (targets.map Char.ofNat)
        | none => some [c]

end PagePipes.Url.Folding
