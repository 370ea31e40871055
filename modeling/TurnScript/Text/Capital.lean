/-!
# Capital letters

The capital form of a letter is usually one letter at a fixed distance from it, and
sometimes several letters: a sharp s becomes two. The tables are the full case mapping of
version 14 of the character database, for everything above the common script.
-/

namespace TurnScript.Text

/-- A run of letters whose capitals lie at one distance: every `step`-th code point from
`first` to `last` moves by `shift`. -/
structure CapitalRun where
  first : Nat
  last : Nat
  shift : Int
  step : Nat

/-- Letters with a single capital letter, in runs. -/
def capitalRuns : List CapitalRun :=
  [
   ⟨181, 181, 743, 1⟩, ⟨224, 246, -32, 1⟩, ⟨248, 254, -32, 1⟩, ⟨255, 255, 121, 1⟩,
   ⟨257, 303, -1, 2⟩, ⟨305, 305, -232, 1⟩, ⟨307, 311, -1, 2⟩, ⟨314, 328, -1, 2⟩,
   ⟨331, 375, -1, 2⟩, ⟨378, 382, -1, 2⟩, ⟨383, 383, -300, 1⟩, ⟨384, 384, 195, 1⟩,
   ⟨387, 389, -1, 2⟩, ⟨392, 392, -1, 1⟩, ⟨396, 396, -1, 1⟩, ⟨402, 402, -1, 1⟩,
   ⟨405, 405, 97, 1⟩, ⟨409, 409, -1, 1⟩, ⟨410, 410, 163, 1⟩, ⟨414, 414, 130, 1⟩,
   ⟨417, 421, -1, 2⟩, ⟨424, 424, -1, 1⟩, ⟨429, 429, -1, 1⟩, ⟨432, 432, -1, 1⟩,
   ⟨436, 438, -1, 2⟩, ⟨441, 441, -1, 1⟩, ⟨445, 445, -1, 1⟩, ⟨447, 447, 56, 1⟩,
   ⟨453, 453, -1, 1⟩, ⟨454, 454, -2, 1⟩, ⟨456, 456, -1, 1⟩, ⟨457, 457, -2, 1⟩,
   ⟨459, 459, -1, 1⟩, ⟨460, 460, -2, 1⟩, ⟨462, 476, -1, 2⟩, ⟨477, 477, -79, 1⟩,
   ⟨479, 495, -1, 2⟩, ⟨498, 498, -1, 1⟩, ⟨499, 499, -2, 1⟩, ⟨501, 501, -1, 1⟩,
   ⟨505, 543, -1, 2⟩, ⟨547, 563, -1, 2⟩, ⟨572, 572, -1, 1⟩, ⟨575, 576, 10815, 1⟩,
   ⟨578, 578, -1, 1⟩, ⟨583, 591, -1, 2⟩, ⟨592, 592, 10783, 1⟩, ⟨593, 593, 10780, 1⟩,
   ⟨594, 594, 10782, 1⟩, ⟨595, 595, -210, 1⟩, ⟨596, 596, -206, 1⟩, ⟨598, 599, -205, 1⟩,
   ⟨601, 601, -202, 1⟩, ⟨603, 603, -203, 1⟩, ⟨604, 604, 42319, 1⟩, ⟨608, 608, -205, 1⟩,
   ⟨609, 609, 42315, 1⟩, ⟨611, 611, -207, 1⟩, ⟨613, 613, 42280, 1⟩, ⟨614, 614, 42308, 1⟩,
   ⟨616, 616, -209, 1⟩, ⟨617, 617, -211, 1⟩, ⟨618, 618, 42308, 1⟩, ⟨619, 619, 10743, 1⟩,
   ⟨620, 620, 42305, 1⟩, ⟨623, 623, -211, 1⟩, ⟨625, 625, 10749, 1⟩, ⟨626, 626, -213, 1⟩,
   ⟨629, 629, -214, 1⟩, ⟨637, 637, 10727, 1⟩, ⟨640, 640, -218, 1⟩, ⟨642, 642, 42307, 1⟩,
   ⟨643, 643, -218, 1⟩, ⟨647, 647, 42282, 1⟩, ⟨648, 648, -218, 1⟩, ⟨649, 649, -69, 1⟩,
   ⟨650, 651, -217, 1⟩, ⟨652, 652, -71, 1⟩, ⟨658, 658, -219, 1⟩, ⟨669, 669, 42261, 1⟩,
   ⟨670, 670, 42258, 1⟩, ⟨837, 837, 84, 1⟩, ⟨881, 883, -1, 2⟩, ⟨887, 887, -1, 1⟩,
   ⟨891, 893, 130, 1⟩, ⟨940, 940, -38, 1⟩, ⟨941, 943, -37, 1⟩, ⟨945, 961, -32, 1⟩,
   ⟨962, 962, -31, 1⟩, ⟨963, 971, -32, 1⟩, ⟨972, 972, -64, 1⟩, ⟨973, 974, -63, 1⟩,
   ⟨976, 976, -62, 1⟩, ⟨977, 977, -57, 1⟩, ⟨981, 981, -47, 1⟩, ⟨982, 982, -54, 1⟩,
   ⟨983, 983, -8, 1⟩, ⟨985, 1007, -1, 2⟩, ⟨1008, 1008, -86, 1⟩, ⟨1009, 1009, -80, 1⟩,
   ⟨1010, 1010, 7, 1⟩, ⟨1011, 1011, -116, 1⟩, ⟨1013, 1013, -96, 1⟩, ⟨1016, 1016, -1, 1⟩,
   ⟨1019, 1019, -1, 1⟩, ⟨1072, 1103, -32, 1⟩, ⟨1104, 1119, -80, 1⟩, ⟨1121, 1153, -1, 2⟩,
   ⟨1163, 1215, -1, 2⟩, ⟨1218, 1230, -1, 2⟩, ⟨1231, 1231, -15, 1⟩, ⟨1233, 1327, -1, 2⟩,
   ⟨1377, 1414, -48, 1⟩, ⟨4304, 4346, 3008, 1⟩, ⟨4349, 4351, 3008, 1⟩, ⟨5112, 5117, -8, 1⟩,
   ⟨7296, 7296, -6254, 1⟩, ⟨7297, 7297, -6253, 1⟩, ⟨7298, 7298, -6244, 1⟩,
   ⟨7299, 7300, -6242, 1⟩, ⟨7301, 7301, -6243, 1⟩, ⟨7302, 7302, -6236, 1⟩,
   ⟨7303, 7303, -6181, 1⟩, ⟨7304, 7304, 35266, 1⟩, ⟨7545, 7545, 35332, 1⟩,
   ⟨7549, 7549, 3814, 1⟩, ⟨7566, 7566, 35384, 1⟩, ⟨7681, 7829, -1, 2⟩, ⟨7835, 7835, -59, 1⟩,
   ⟨7841, 7935, -1, 2⟩, ⟨7936, 7943, 8, 1⟩, ⟨7952, 7957, 8, 1⟩, ⟨7968, 7975, 8, 1⟩,
   ⟨7984, 7991, 8, 1⟩, ⟨8000, 8005, 8, 1⟩, ⟨8017, 8023, 8, 2⟩, ⟨8032, 8039, 8, 1⟩,
   ⟨8048, 8049, 74, 1⟩, ⟨8050, 8053, 86, 1⟩, ⟨8054, 8055, 100, 1⟩, ⟨8056, 8057, 128, 1⟩,
   ⟨8058, 8059, 112, 1⟩, ⟨8060, 8061, 126, 1⟩, ⟨8112, 8113, 8, 1⟩, ⟨8126, 8126, -7205, 1⟩,
   ⟨8144, 8145, 8, 1⟩, ⟨8160, 8161, 8, 1⟩, ⟨8165, 8165, 7, 1⟩, ⟨8526, 8526, -28, 1⟩,
   ⟨8560, 8575, -16, 1⟩, ⟨8580, 8580, -1, 1⟩, ⟨9424, 9449, -26, 1⟩, ⟨11312, 11359, -48, 1⟩,
   ⟨11361, 11361, -1, 1⟩, ⟨11365, 11365, -10795, 1⟩, ⟨11366, 11366, -10792, 1⟩,
   ⟨11368, 11372, -1, 2⟩, ⟨11379, 11379, -1, 1⟩, ⟨11382, 11382, -1, 1⟩, ⟨11393, 11491, -1, 2⟩,
   ⟨11500, 11502, -1, 2⟩, ⟨11507, 11507, -1, 1⟩, ⟨11520, 11557, -7264, 1⟩,
   ⟨11559, 11559, -7264, 1⟩, ⟨11565, 11565, -7264, 1⟩, ⟨42561, 42605, -1, 2⟩,
   ⟨42625, 42651, -1, 2⟩, ⟨42787, 42799, -1, 2⟩, ⟨42803, 42863, -1, 2⟩, ⟨42874, 42876, -1, 2⟩,
   ⟨42879, 42887, -1, 2⟩, ⟨42892, 42892, -1, 1⟩, ⟨42897, 42899, -1, 2⟩, ⟨42900, 42900, 48, 1⟩,
   ⟨42903, 42921, -1, 2⟩, ⟨42933, 42947, -1, 2⟩, ⟨42952, 42954, -1, 2⟩, ⟨42961, 42961, -1, 1⟩,
   ⟨42967, 42969, -1, 2⟩, ⟨42998, 42998, -1, 1⟩, ⟨43859, 43859, -928, 1⟩,
   ⟨43888, 43967, -38864, 1⟩, ⟨65345, 65370, -32, 1⟩, ⟨66600, 66639, -40, 1⟩,
   ⟨66776, 66811, -40, 1⟩, ⟨66967, 66977, -39, 1⟩, ⟨66979, 66993, -39, 1⟩,
   ⟨66995, 67001, -39, 1⟩, ⟨67003, 67004, -39, 1⟩, ⟨68800, 68850, -64, 1⟩,
   ⟨71872, 71903, -32, 1⟩, ⟨93792, 93823, -32, 1⟩, ⟨125218, 125251, -34, 1⟩]

/-- Letters whose capital form is several letters, with those letters' code points. -/
def capitalGroups : List (Nat × List Nat) :=
  [
   (223, [83, 83]), (329, [700, 78]), (496, [74, 780]), (912, [921, 776, 769]),
   (944, [933, 776, 769]), (1415, [1333, 1362]), (7830, [72, 817]), (7831, [84, 776]),
   (7832, [87, 778]), (7833, [89, 778]), (7834, [65, 702]), (8016, [933, 787]),
   (8018, [933, 787, 768]), (8020, [933, 787, 769]), (8022, [933, 787, 834]),
   (8064, [7944, 921]), (8065, [7945, 921]), (8066, [7946, 921]), (8067, [7947, 921]),
   (8068, [7948, 921]), (8069, [7949, 921]), (8070, [7950, 921]), (8071, [7951, 921]),
   (8072, [7944, 921]), (8073, [7945, 921]), (8074, [7946, 921]), (8075, [7947, 921]),
   (8076, [7948, 921]), (8077, [7949, 921]), (8078, [7950, 921]), (8079, [7951, 921]),
   (8080, [7976, 921]), (8081, [7977, 921]), (8082, [7978, 921]), (8083, [7979, 921]),
   (8084, [7980, 921]), (8085, [7981, 921]), (8086, [7982, 921]), (8087, [7983, 921]),
   (8088, [7976, 921]), (8089, [7977, 921]), (8090, [7978, 921]), (8091, [7979, 921]),
   (8092, [7980, 921]), (8093, [7981, 921]), (8094, [7982, 921]), (8095, [7983, 921]),
   (8096, [8040, 921]), (8097, [8041, 921]), (8098, [8042, 921]), (8099, [8043, 921]),
   (8100, [8044, 921]), (8101, [8045, 921]), (8102, [8046, 921]), (8103, [8047, 921]),
   (8104, [8040, 921]), (8105, [8041, 921]), (8106, [8042, 921]), (8107, [8043, 921]),
   (8108, [8044, 921]), (8109, [8045, 921]), (8110, [8046, 921]), (8111, [8047, 921]),
   (8114, [8122, 921]), (8115, [913, 921]), (8116, [902, 921]), (8118, [913, 834]),
   (8119, [913, 834, 921]), (8124, [913, 921]), (8130, [8138, 921]), (8131, [919, 921]),
   (8132, [905, 921]), (8134, [919, 834]), (8135, [919, 834, 921]), (8140, [919, 921]),
   (8146, [921, 776, 768]), (8147, [921, 776, 769]), (8150, [921, 834]),
   (8151, [921, 776, 834]), (8162, [933, 776, 768]), (8163, [933, 776, 769]),
   (8164, [929, 787]), (8166, [933, 834]), (8167, [933, 776, 834]), (8178, [8186, 921]),
   (8179, [937, 921]), (8180, [911, 921]), (8182, [937, 834]), (8183, [937, 834, 921]),
   (8188, [937, 921]), (64256, [70, 70]), (64257, [70, 73]), (64258, [70, 76]),
   (64259, [70, 70, 73]), (64260, [70, 70, 76]), (64261, [83, 84]), (64262, [83, 84]),
   (64275, [1348, 1350]), (64276, [1348, 1333]), (64277, [1348, 1339]), (64278, [1358, 1350]),
   (64279, [1348, 1341])]

/-- Whether a run says what the capital of a code point is. -/
def CapitalRun.covers (run : CapitalRun) (point : Nat) : Bool :=
  run.first ≤ point && point ≤ run.last && (point - run.first) % run.step == 0

/-- The capital form of one character: itself when it has none. -/
def capitals (c : Char) : List Char :=
  if 'a' ≤ c ∧ c ≤ 'z' then [Char.ofNat (c.toNat - 32)]
  else if c.toNat < 128 then [c]
  else match capitalGroups.find? (·.1 == c.toNat) with
    | some (_, points) => points.map Char.ofNat
    | none => match capitalRuns.find? (·.covers c.toNat) with
      | some run => [Char.ofNat (Int.toNat (c.toNat + run.shift))]
      | none => [c]

/-- A text in capital letters. -/
def inCapitals (text : String) : String :=
  String.ofList (text.toList.flatMap capitals)

end TurnScript.Text
