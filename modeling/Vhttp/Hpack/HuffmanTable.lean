import Vhttp.Bytes

/-!
# The Huffman table of HPACK

`lib/http2/hpack_huffman_table.h`: the table by which a string is decoded four bits at a time.
-/

namespace Vhttp.Hpack

/-- `nghttp2_huff_decode`; `flags` is a set of the bits below. -/
structure HuffDecode where
  state : ℕ
  flags : ℕ
  sym : ℕ

/-- `NGHTTP2_HUFF_ACCEPTED`: the input may end here. -/
def huffAccepted : ℕ := 1
/-- `NGHTTP2_HUFF_SYM`: a symbol is complete. -/
def huffSym : ℕ := 2
/-- `NGHTTP2_HUFF_FAIL`. -/
def huffFail : ℕ := 4
/-- `NGHTTP2_HUFF_INVALID_FOR_HEADER_NAME`. -/
def huffInvalidForHeaderName : ℕ := 8
/-- `NGHTTP2_HUFF_INVALID_FOR_HEADER_VALUE`. -/
def huffInvalidForHeaderValue : ℕ := 16
/-- `NGHTTP2_HUFF_UPPER_CASE_CHAR`. -/
def huffUpperCaseChar : ℕ := 32
/-- `NGHTTP2_HUFF_INVALID_CHARS`. -/
def huffInvalidChars : ℕ := huffInvalidForHeaderName ||| huffInvalidForHeaderValue

/-- The states after a symbol that leaves none, one, two or three bits of the four; one entry for
each value of these bits. -/
def huffStates : ℕ → List ℕ
  | 1 => [0]
  | 2 => [1, 22]
  | 4 => [2, 9, 23, 40]
  | 8 => [3, 6, 10, 15, 24, 31, 41, 56]
  | _ => []

/-- The flags, by the digit that is written for them. -/
def huffFlags : ℕ → ℕ
  | 0xb => huffSym ||| huffInvalidChars
  | 0xc => huffSym ||| huffInvalidForHeaderName ||| huffUpperCaseChar
  | digit => digit

/-- Some entries of a row, each with two digits for the state, two for the flags and two for the
symbol: the entry without a symbol, or all those for one symbol. Of the latter the input may end
after the last one, where all bits that are left are set. -/
def huffEntries (group : ℕ) : List ℕ :=
  let count := group / 2 ^ 12
  let flags := huffFlags (group / 2 ^ 8 % 2 ^ 4)
  let value := group % 2 ^ 8
  if count = 0 then [value * 2 ^ 16 + flags * 2 ^ 8]
  else
    (huffStates count).mapIdx fun i state =>
      state * 2 ^ 16 + (if i + 1 = count then flags ||| huffAccepted else flags) * 2 ^ 8 + value

/-- Four digits for some entries of a row. Those without a symbol are written as 0, the flags and
the state; those for a symbol, which follow each other, once, as their number, the flags and the
symbol. -/
def huffGroups : ℕ → ℕ → List ℕ
  | 0, _ => []
  | _ + 1, 0 => []
  | n + 1, row => huffGroups n (row / 2 ^ 16) ++ [row % 2 ^ 16]

/-- The groups for the first `n` entries of a row, and the others. -/
def huffHalf : ℕ → List ℕ → List ℕ × List ℕ
  | _, [] => ([], [])
  | 0, groups => ([], groups)
  | n, group :: groups =>
    let half := huffHalf (n - max 1 (group / 2 ^ 12)) groups
    (group :: half.1, half.2)

/-- A row, and those of the states below it: if a half of it has symbols only, that makes a row on
its own, where there are twice as many entries for each. -/
def huffRows : ℕ → List ℕ → List (List ℕ)
  | 0, _ => []
  | n + 1, row =>
    let halves := [(huffHalf 8 row).1, (huffHalf 8 row).2]
    row :: (halves.filter fun half => half.all (2 ^ 12 ≤ ·) && 1 < half.length).flatMap fun half =>
      huffRows n (half.map fun group => group + group / 2 ^ 12 * 2 ^ 12)

/-- `huff_decode_table`, one number for each row that does not follow from those above. -/
def huffDecodeTable : ℕ := packTable 384 <| List.map (packTable 24 ∘ List.flatMap huffEntries) <|
  List.flatMap (huffRows 4 ∘ huffGroups 16) [
  0x0004_0005_0007_0008_000b_000c_0010_0013_0019_001c_0020_0023_002a_0031_0039_0140,
  0x1230_1231_1232_1261_1263_1265_1269_126f_1273_1274_000d_000e_0011_0012_0014_0015,
  0x2273_2274_1a20_1225_122d_122e_1a2f_1233_1234_1235_1236_1237_1238_1239,
  0x001a_001b_001d_001e_0021_0022_0024_0025_002b_002e_0032_0035_003a_003d_0041_0144,
  0x1a3d_1c41_125f_1262_1264_1266_1267_1268_126c_126d_126e_1270_1272_1275_0026_0027,
  0x226c_226d_226e_2270_2272_2275_1a3a_1c42_1c43_1c44,
  0x002c_002d_002f_0030_0033_0034_0036_0037_003b_003c_003e_003f_0042_0043_0045_0148,
  0x1c45_1c46_1c47_1c48_1c49_1c4a_1c4b_1c4c_1c4d_1c4e_1c4f_1c50_1c51_1c52_1c53_1c54,
  0x1c55_1c56_1c57_1c59_126a_126b_1271_1276_1277_1278_1279_127a_0046_0047_0049_014a,
  0x2277_2278_2279_227a_1226_122a_1a2c_1a3b_1c58_1c5a_004b_004e,
  0x2226_222a_2a2c_2a3b_2c58_2c5a_004c_004d_004f_0051,
  0x4c58_4c5a_1221_1a22_1a28_1a29_1a3f_0050_0052_0054,
  0x2221_2a22_2a28_2a29_2a3f_1227_122b_127c_0053_0055_0058,
  0x4a3f_2227_222b_227c_1223_1a3e_0056_0057_0059_005a,
  0x427c_2223_2a3e_1b00_1224_1a40_1a5b_1a5d_127e_005b_005c,
  0x2b00_2224_2a40_2a5b_2a5d_227e_125e_1a7d_005d_005e, 0x4a5d_427e_225e_2a7d_1a3c_1260_1a7b_005f,
  0x425e_4a7d_2a3c_2260_2a7b_0060_006e, 0x4a3c_4260_4a7b_0061_0065_006f_0085,
  0x8a7b_0062_0063_0066_0069_0070_0077_0086_0099,
  0x1a5c_1ac3_1ad0_0064_0067_0068_006a_006b_0071_0074_0078_007e_0087_008e_009a_00a9,
  0x2a5c_2ac3_2ad0_1a80_1a82_1a83_1aa2_1ab8_1ac2_1ae0_1ae2_006c_006d,
  0x2a83_2aa2_2ab8_2ac2_2ae0_2ae2_1a99_1aa1_1aa7_1aac,
  0x0072_0073_0075_0076_0079_007b_007f_0082_0088_008b_008f_0092_009b_00a2_00aa_00b4,
  0x1ab0_1ab1_1ab3_1ad1_1ad8_1ad9_1ae3_1ae5_1ae6_007a_007c_007d_0080_0081_0083_0084,
  0x2ae6_1a81_1a84_1a85_1a86_1a88_1a92_1a9a_1a9c_1aa0_1aa3_1aa4_1aa9_1aaa_1aad,
  0x0089_008a_008c_008d_0090_0091_0093_0096_009c_009f_00a3_00a6_00ab_00ae_00b5_00be,
  0x1ab2_1ab5_1ab9_1aba_1abb_1abd_1abe_1ac4_1ac6_1ae4_1ae8_1ae9_0094_0095_0097_0098,
  0x2ac6_2ae4_2ae8_2ae9_1b01_1a87_1a89_1a8a_1a8b_1a8c_1a8d_1a8f,
  0x009d_009e_00a0_00a1_00a4_00a5_00a7_00a8_00ac_00ad_00af_00b1_00b6_00b9_00bf_00cf,
  0x1a93_1a95_1a96_1a97_1a98_1a9b_1a9d_1a9e_1aa5_1aa6_1aa8_1aae_1aaf_1ab4_1ab6_1ab7,
  0x1abc_1abf_1ac5_1ae7_1aef_00b0_00b2_00b3_00b7_00b8_00ba_00bb_00c0_00c7_00d0_00df,
  0x2abc_2abf_2ac5_2ae7_2aef_1a09_1a8e_1a90_1a91_1a94_1a9f,
  0x1aab_1ace_1ad7_1ae1_1aec_1aed_00bc_00bd_00c1_00c4_00c8_00cb_00d1_00d8_00e0_00ee,
  0x2aab_2ace_2ad7_2ae1_2aec_2aed_1ac7_1acf_1aea_1aeb,
  0x00c2_00c3_00c5_00c6_00c9_00ca_00cc_00cd_00d2_00d5_00d9_00dc_00e1_00e7_00ef_00f6,
  0x1ac0_1ac1_1ac8_1ac9_1aca_1acd_1ad2_1ad5_1ada_1adb_1aee_1af0_1af2_1af3_1aff_00ce,
  0x2ada_2adb_2aee_2af0_2af2_2af3_2aff_1acb_1acc,
  0x00d3_00d4_00d6_00d7_00da_00db_00dd_00de_00e2_00e4_00e8_00eb_00f0_00f3_00f7_00fa,
  0x1ad3_1ad4_1ad6_1add_1ade_1adf_1af1_1af4_1af5_1af6_1af7_1af8_1afa_1afb_1afc_1afd,
  0x1afe_00e3_00e5_00e6_00e9_00ea_00ec_00ed_00f1_00f2_00f4_00f5_00f8_00f9_00fb_00fc,
  0x2afe_1b02_1b03_1b04_1b05_1b06_1b07_1b08_1b0b_1b0c_1b0e_1b0f_1b10_1b11_1b12,
  0x1b13_1b14_1b15_1b17_1b18_1b19_1b1a_1b1b_1b1c_1b1d_1b1e_1b1f_1b7f_1adc_1af9_00fd,
  0x2b1c_2b1d_2b1e_2b1f_2b7f_2adc_2af9_00fe_00ff, 0x4b7f_4adc_4af9_1b0a_1b0d_1b16_0400,
  0x8af9_2b0a_2b0d_2b16_0400_0400, 0x4b0a_4b0d_4b16_0400_0400_0400_0400,
  0x8b16_0400_0400_0400_0400_0400_0400_0400_0400]

/-- `huff_decode_table[state][nibble]`. -/
def huffDecodeEntry (state nibble : ℕ) : HuffDecode :=
  let entry := tableEntry 24 (tableEntry 384 huffDecodeTable state) nibble
  ⟨entry / 2 ^ 16, entry / 2 ^ 8 % 2 ^ 8, entry % 2 ^ 8⟩

end Vhttp.Hpack
