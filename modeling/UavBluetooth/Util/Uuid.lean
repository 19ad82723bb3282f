import UavBluetooth.Util.Names

set_option autoImplicit false

/-! # Names as UUIDs

`uuid_utils.cpp`: the MD5 digest of a name in the shape of a UUID. A name is hashed here in one
piece; `Util.Md5` has the buffered context and shows that it makes no difference.
-/

namespace UavBluetooth.Util

/-! ## The digest -/

/-- The chaining state. -/
structure Md5State where
  a : UInt32
  b : UInt32
  c : UInt32
  d : UInt32

def md5Init : Md5State := ⟨0x67452301, 0xefcdab89, 0x98badcfe, 0x10325476⟩

def md5F (x y z : UInt32) : UInt32 := (x &&& y) ||| (~~~x &&& z)

def md5G (x y z : UInt32) : UInt32 := (x &&& z) ||| (y &&& ~~~z)

def md5H (x y z : UInt32) : UInt32 := x ^^^ y ^^^ z

def md5I (x y z : UInt32) : UInt32 := y ^^^ (x ||| ~~~z)

def md5Rotl (x n : UInt32) : UInt32 := (x <<< n) ||| (x >>> (32 - n))

/-- The rotation of each round of sixteen steps, four by four. -/
def md5Shifts : List (List UInt32) :=
  [[7, 12, 17, 22], [5, 9, 14, 20], [4, 11, 16, 23], [6, 10, 15, 21]]

def md5Constants : List UInt32 :=
  [0xd76aa478, 0xe8c7b756, 0x242070db, 0xc1bdceee, 0xf57c0faf, 0x4787c62a, 0xa8304613, 0xfd469501,
   0x698098d8, 0x8b44f7af, 0xffff5bb1, 0x895cd7be, 0x6b901122, 0xfd987193, 0xa679438e, 0x49b40821,
   0xf61e2562, 0xc040b340, 0x265e5a51, 0xe9b6c7aa, 0xd62f105d, 0x02441453, 0xd8a1e681, 0xe7d3fbc8,
   0x21e1cde6, 0xc33707d6, 0xf4d50d87, 0x455a14ed, 0xa9e3e905, 0xfcefa3f8, 0x676f02d9, 0x8d2a4c8a,
   0xfffa3942, 0x8771f681, 0x6d9d6122, 0xfde5380c, 0xa4beea44, 0x4bdecfa9, 0xf6bb4b60, 0xbebfbc70,
   0x289b7ec6, 0xeaa127fa, 0xd4ef3085, 0x04881d05, 0xd9d4d039, 0xe6db99e5, 0x1fa27cf8, 0xc4ac5665,
   0xf4292244, 0x432aff97, 0xab9423a7, 0xfc93a039, 0x655b59c3, 0x8f0ccc92, 0xffeff47d, 0x85845dd1,
   0x6fa87e4f, 0xfe2ce6e0, 0xa3014314, 0x4e0811a1, 0xf7537e82, 0xbd3af235, 0x2ad7d2bb, 0xeb86d391]

/-- Four bytes as a little-endian word. -/
def word : List UInt8 → UInt32
  | [b₀, b₁, b₂, b₃] =>
      b₀.toUInt32 ||| (b₁.toUInt32 <<< 8) ||| (b₂.toUInt32 <<< 16) ||| (b₃.toUInt32 <<< 24)
  | _ => 0

def wordBytes (w : UInt32) : List UInt8 :=
  [w.toUInt8, (w >>> 8).toUInt8, (w >>> 16).toUInt8, (w >>> 24).toUInt8]

/-- One step of the sixty-four. -/
def md5Step (block : List UInt8) (s : Md5State) (i : Nat) : Md5State :=
  let (f, g) :=
    if i < 16 then (md5F s.b s.c s.d, i)
    else if i < 32 then (md5G s.b s.c s.d, (5 * i + 1) % 16)
    else if i < 48 then (md5H s.b s.c s.d, (3 * i + 5) % 16)
    else (md5I s.b s.c s.d, 7 * i % 16)
  let shift := ((md5Shifts.getD (i / 16) []).getD (i % 4) 0)
  let message := word ((block.drop (4 * g)).take 4)
  let sum := s.a + f + md5Constants.getD i 0 + message
  ⟨s.d, s.b + md5Rotl sum shift, s.b, s.c⟩

def md5Transform (s : Md5State) (block : List UInt8) : Md5State :=
  let t := (List.range 64).foldl (md5Step block) s
  ⟨s.a + t.a, s.b + t.b, s.c + t.c, s.d + t.d⟩

/-- Pad with `0x80` followed by zeros, then the little-endian bit count. -/
def md5Pad (data : List UInt8) : List UInt8 :=
  let zeros := (119 - data.length % 64) % 64
  let bits := UInt64.ofNat (8 * data.length)
  data ++ (0x80 :: List.replicate zeros (0 : UInt8)) ++ wordBytes bits.toUInt32 ++
    wordBytes (bits >>> 32).toUInt32

def md5 (data : List UInt8) : List UInt8 :=
  let padded := md5Pad data
  let s := (List.range (padded.length / 64)).foldl
    (fun s k => md5Transform s ((padded.drop (64 * k)).take 64)) md5Init
  wordBytes s.a ++ wordBytes s.b ++ wordBytes s.c ++ wordBytes s.d

def hexDigit (n : UInt8) : Char := ("0123456789abcdef".toList).getD n.toNat '0'

def md5Hex (data : List UInt8) : List Char :=
  (md5 data).flatMap fun byte : UInt8 => [hexDigit (byte >>> 4), hexDigit (byte &&& 0xf)]

/-! ## UUIDs -/

/-- The digest of a name in the form 8-4-4-4-12. -/
def uuidFromName (name : String) : String :=
  let hex := md5Hex (name.toList.map fun c => UInt8.ofNat c.toNat)
  String.ofList (hex.take 8 ++ '-' :: (hex.drop 8).take 4 ++ '-' :: (hex.drop 12).take 4 ++
    '-' :: (hex.drop 16).take 4 ++ '-' :: hex.drop 20)

example : uuidFromName "" = "d41d8cd9-8f00-b204-e980-0998ecf8427e" := by decide +kernel

/-- The canonical syntax of a UUID, after trimming. -/
def isUuid (value : String) : Bool :=
  let groups := (Strip.strip isSpace value.toList).splitOnP (· == '-')
  groups.map List.length == [8, 4, 4, 4, 12] && groups.all fun group => group.all isHexDigit

/-! ## The shape of a name-based UUID -/

/-- A predicate of all sixteen digits holds of every `hexDigit`. -/
theorem forall_hexDigit {p : Char → Bool} (h : "0123456789abcdef".toList.all p = true)
    (n : UInt8) : p (hexDigit n) = true := by
  have hall := List.all_eq_true.mp h
  rw [hexDigit, List.getD_eq_getElem?_getD]
  cases hdigit : "0123456789abcdef".toList[n.toNat]? with
  | none => exact hall '0' (by simp)
  | some c => exact hall c (List.mem_of_getElem? hdigit)

theorem isHexDigit_hexDigit (n : UInt8) : isHexDigit (hexDigit n) = true :=
  forall_hexDigit (by decide +kernel) n

theorem length_md5Hex (data : List UInt8) : (md5Hex data).length = 32 := by
  have hlength : (md5 data).length = 16 := rfl
  unfold md5Hex
  rw [List.length_flatMap]
  simp only [List.length_cons, List.length_nil]
  rw [List.map_const', List.sum_replicate, hlength]
  rfl

theorem isHexDigit_of_mem_md5Hex {data : List UInt8} {c : Char} (h : c ∈ md5Hex data) :
    isHexDigit c = true := by
  obtain ⟨byte, _, hc⟩ := List.mem_flatMap.mp h
  rcases List.mem_cons.mp hc with rfl | hc
  · exact isHexDigit_hexDigit _
  · rw [List.mem_singleton.mp hc]
    exact isHexDigit_hexDigit _

/-- Without its dashes, the UUID of a name is its digest. -/
theorem filter_uuidFromName (name : String) :
    (uuidFromName name).toList.filter (· ≠ '-') =
      md5Hex (name.toList.map fun c => UInt8.ofNat c.toNat) := by
  generalize hhex : md5Hex (name.toList.map fun c => UInt8.ofNat c.toNat) = hex
  have hdash : ∀ c ∈ hex, decide (c ≠ '-') = true := by
    intro c hc
    rw [← hhex] at hc
    have hdigit := isHexDigit_of_mem_md5Hex hc
    rw [decide_eq_true_eq]
    rintro rfl
    exact absurd hdigit (by decide)
  have hkeep : ∀ l : List Char, l <:+: hex → l.filter (· ≠ '-') = l := fun l hl =>
    List.filter_eq_self.mpr fun c hc => hdash c (hl.subset hc)
  have hpart : ∀ i n : Nat, (hex.drop i).take n <:+: hex := fun i n =>
    (List.take_prefix n _).isInfix.trans (List.drop_suffix i hex).isInfix
  unfold uuidFromName
  rw [hhex, String.toList_ofList]
  simp only [List.filter_append, List.filter_cons, ne_eq, not_true_eq_false, decide_false,
    Bool.false_eq_true, if_false]
  rw [hkeep _ (List.take_prefix 8 hex).isInfix, hkeep _ (hpart 8 4), hkeep _ (hpart 12 4),
    hkeep _ (hpart 16 4), hkeep _ (List.drop_suffix 20 hex).isInfix]
  have hrejoin : ∀ i : Nat, (hex.drop i).take 4 ++ hex.drop (i + 4) = hex.drop i := by
    intro i
    rw [← List.drop_drop, List.take_append_drop]
  simp only [List.append_assoc]
  rw [hrejoin 16, hrejoin 12, hrejoin 8, List.take_append_drop]

end UavBluetooth.Util
