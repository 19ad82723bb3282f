import UavBluetooth.Lib.Blocks
import UavBluetooth.Util.Uuid

set_option autoImplicit false

/-! # The buffered digest

The `MD5Context` of `uuid_utils.cpp`: a partial block is kept in a buffer of 64 bytes, and the
padding is fed through the same update. Whatever the chunks, the digest is the one of the
padded message (`md5_stream`).
-/

namespace UavBluetooth.Util

/-! ## The digest of whole blocks -/

/-- `memcpy` of the four state words. -/
def md5Digest (s : Md5State) : List UInt8 :=
  wordBytes s.a ++ wordBytes s.b ++ wordBytes s.c ++ wordBytes s.d

/-- `memcpy` of a 64-bit count. -/
def countBytes (bits : UInt64) : List UInt8 :=
  wordBytes bits.toUInt32 ++ wordBytes (bits >>> 32).toUInt32

/-- The hash in one piece, as `resolve_uuid` and its siblings call it. -/
theorem md5_eq (data : List UInt8) :
    md5 data = md5Digest ((Blocks.full 64 (md5Pad data)).foldl md5Transform md5Init) := by
  rw [Blocks.full, List.foldl_map]
  rfl

/-- The padding fills the last block up to the bit count. -/
theorem md5Pad_zeros (data : List UInt8) : ∃ zeros < 64, (data.length + 1 + zeros) % 64 = 56 ∧
    md5Pad data = data ++ (0x80 :: List.replicate zeros 0) ++
      countBytes (UInt64.ofNat (8 * data.length)) := by
  refine ⟨(119 - data.length % 64) % 64, Nat.mod_lt _ (by decide), by omega, ?_⟩
  simp only [md5Pad, countBytes, List.append_assoc]

/-! ## The context -/

structure Md5Context where
  state : Md5State
  count : UInt64
  buffer : Vector UInt8 64

def md5Start : Md5Context where
  state := md5Init
  count := 0
  buffer := Vector.replicate 64 0

/-- `memcpy(buffer + index, bytes, …)`. -/
def overwrite (buffer : Vector UInt8 64) (index : Nat) (bytes : List UInt8) : Vector UInt8 64 :=
  Vector.ofFn fun j =>
    if index ≤ j.val ∧ j.val < index + bytes.length then bytes.getD (j.val - index) 0
    else buffer[j]

/-- The loop over the whole blocks of the input, and the remainder to the buffer. -/
def md5Blocks (ctx : Md5Context) (data : List UInt8) : Md5Context :=
  let state := (List.range (data.length / 64)).foldl
    (fun s k => md5Transform s ((data.drop (64 * k)).take 64)) ctx.state
  let left := data.drop (64 * (data.length / 64))
  { ctx with
    state := state
    buffer := if left = [] then ctx.buffer else overwrite ctx.buffer 0 left }

def md5Update (ctx : Md5Context) (data : List UInt8) : Md5Context :=
  let index := (ctx.count % 64).toNat
  let ctx := { ctx with count := ctx.count + UInt64.ofNat data.length }
  if index ≠ 0 then
    let part := min data.length (64 - index)
    let ctx := { ctx with buffer := overwrite ctx.buffer index (data.take part) }
    if index + part < 64 then ctx
    else
      md5Blocks { ctx with state := md5Transform ctx.state ctx.buffer.toList } (data.drop part)
  else md5Blocks ctx data

/-- `while (count % 64 != 56)`: one zero at a time. -/
def md5PadLoop : Nat → Md5Context → Option Md5Context
  | 0, _ => none
  | fuel + 1, ctx =>
      if ctx.count % 64 = 56 then some ctx else md5PadLoop fuel (md5Update ctx [0])

def md5Finalize (ctx : Md5Context) : Option (List UInt8) :=
  let bits := ctx.count * 8
  (md5PadLoop 64 (md5Update ctx [0x80])).map fun ctx =>
    md5Digest (md5Update ctx (countBytes bits)).state

/-! ## The buffer -/

theorem getElem_overwrite (buffer : Vector UInt8 64) (index : Nat) (bytes : List UInt8) (j : Nat)
    (hj : j < 64) : (overwrite buffer index bytes)[j] =
      if index ≤ j ∧ j < index + bytes.length then bytes.getD (j - index) 0 else buffer[j] :=
  Vector.getElem_ofFn hj

theorem toList_overwrite (buffer : Vector UInt8 64) (index : Nat) (bytes : List UInt8)
    (h : index + bytes.length ≤ 64) :
    (overwrite buffer index bytes).toList.take (index + bytes.length) =
      buffer.toList.take index ++ bytes := by
  have hindex : (buffer.toList.take index).length = index := by
    rw [List.length_take, Vector.length_toList]
    omega
  apply List.ext_getElem
  · rw [List.length_take, Vector.length_toList, List.length_append, hindex]
    omega
  · intro j hj hj'
    rw [List.length_append, hindex] at hj'
    rw [List.getElem_take, Vector.getElem_toList, getElem_overwrite]
    by_cases hlt : j < index
    · have hnot : ¬ (index ≤ j ∧ j < index + bytes.length) := by omega
      have htake : j < (buffer.toList.take index).length := by rw [hindex]; exact hlt
      rw [if_neg hnot, List.getElem_append_left htake, List.getElem_take, Vector.getElem_toList]
    · have hin : index ≤ j ∧ j < index + bytes.length := by omega
      have htake : (buffer.toList.take index).length ≤ j := by rw [hindex]; omega
      have hbytes : j - index < bytes.length := by omega
      rw [if_pos hin, List.getElem_append_right htake, List.getD_eq_getElem?_getD,
        List.getElem?_eq_getElem hbytes, Option.getD_some]
      simp only [hindex]

/-- What the buffer holds of the current block. -/
def Md5Context.pending (ctx : Md5Context) : List UInt8 :=
  ctx.buffer.toList.take (ctx.count % 64).toNat

/-- The context has consumed `data`. -/
structure Md5Context.Holds (ctx : Md5Context) (data : List UInt8) : Prop where
  absorbed : Blocks.Absorbed 64 md5Transform md5Init data ctx.state ctx.pending
  count : ctx.count = UInt64.ofNat data.length

theorem count_mod (n : Nat) : (UInt64.ofNat n % 64).toNat = n % 64 := by
  simp

theorem md5Start_holds : md5Start.Holds [] :=
  ⟨.nil _ _, rfl⟩

theorem Md5Context.Holds.index {ctx : Md5Context} {data : List UInt8} (h : ctx.Holds data) :
    (ctx.count % 64).toNat = data.length % 64 := by
  rw [h.count, count_mod]

theorem md5Blocks_state (ctx : Md5Context) (data : List UInt8) :
    (md5Blocks ctx data).state = (Blocks.full 64 data).foldl md5Transform ctx.state := by
  rw [Blocks.full, List.foldl_map]
  rfl

theorem md5Blocks_buffer (ctx : Md5Context) (data : List UInt8) :
    (md5Blocks ctx data).buffer.toList.take (data.length % 64) = Blocks.rest 64 data := by
  have hlen : (Blocks.rest 64 data).length = data.length % 64 := Blocks.length_rest data
  show (if Blocks.rest 64 data = [] then ctx.buffer
    else overwrite ctx.buffer 0 (Blocks.rest 64 data)).toList.take _ = _
  split
  · rename_i hnil
    rw [hnil, List.length_nil] at hlen
    rw [hnil, ← hlen, List.take_zero]
  · have hput := toList_overwrite ctx.buffer 0 (Blocks.rest 64 data) (by omega)
    simpa [hlen] using hput

/-- The update in terms of the block under way. -/
theorem md5Update_spec (ctx : Md5Context) (chunk : List UInt8) :
    (md5Update ctx chunk).count = ctx.count + UInt64.ofNat chunk.length ∧
    (md5Update ctx chunk).state =
      (Blocks.full 64 (ctx.pending ++ chunk)).foldl md5Transform ctx.state ∧
    (md5Update ctx chunk).buffer.toList.take (((ctx.count % 64).toNat + chunk.length) % 64) =
      Blocks.rest 64 (ctx.pending ++ chunk) := by
  have hindex : (ctx.count % 64).toNat < 64 := by
    rw [UInt64.toNat_mod]
    exact Nat.mod_lt _ (by decide)
  have hpending : ctx.pending.length = (ctx.count % 64).toNat := by
    rw [Md5Context.pending, List.length_take, Vector.length_toList]
    omega
  have htake : ctx.buffer.toList.take (ctx.count % 64).toNat = ctx.pending := rfl
  generalize hi : (ctx.count % 64).toNat = index at hindex hpending htake
  unfold md5Update
  simp only [hi]
  by_cases hzero : index = 0
  · -- Nothing is pending: the chunk is cut by itself.
    subst hzero
    have hnil : ctx.pending = [] := List.length_eq_zero_iff.mp hpending
    simp only [ne_eq, not_true_eq_false, if_false]
    rw [hnil, List.nil_append, Nat.zero_add]
    exact ⟨rfl, md5Blocks_state _ chunk, md5Blocks_buffer _ chunk⟩
  · simp only [ne_eq, hzero, not_false_eq_true, if_true]
    by_cases hshort : index + chunk.length < 64
    · -- The block is still incomplete.
      have hmin : min chunk.length (64 - index) = chunk.length := by omega
      have hlen : (ctx.pending ++ chunk).length < 64 := by
        rw [List.length_append]
        omega
      have hput := toList_overwrite ctx.buffer index chunk (by omega)
      rw [hmin, List.take_length, if_pos hshort, Blocks.full_of_lt hlen, Blocks.rest_of_lt hlen,
        Nat.mod_eq_of_lt hshort]
      exact ⟨rfl, rfl, hput.trans (by rw [htake])⟩
    · -- The chunk completes the block; what is left of it is cut by itself.
      have hmin : min chunk.length (64 - index) = 64 - index := by omega
      have hfirst : (chunk.take (64 - index)).length = 64 - index := by
        rw [List.length_take]
        omega
      have hblock : (overwrite ctx.buffer index (chunk.take (64 - index))).toList =
          ctx.pending ++ chunk.take (64 - index) := by
        have hput := toList_overwrite ctx.buffer index (chunk.take (64 - index)) (by omega)
        rw [hfirst, htake, List.take_of_length_le (by rw [Vector.length_toList]; omega)] at hput
        exact hput
      have hlen : (ctx.pending ++ chunk.take (64 - index)).length = 64 := by
        rw [List.length_append]
        omega
      have hsplit : ctx.pending ++ chunk =
          (ctx.pending ++ chunk.take (64 - index)) ++ chunk.drop (64 - index) := by
        rw [List.append_assoc, List.take_append_drop]
      rw [hmin, if_neg (by omega), hsplit, Blocks.full_block_append (by decide) hlen,
        Blocks.rest_block_append (by decide) hlen, List.foldl_cons, ← hblock]
      refine ⟨rfl, md5Blocks_state _ _, ?_⟩
      have hleft : (index + chunk.length) % 64 = (chunk.drop (64 - index)).length % 64 := by
        rw [List.length_drop]
        omega
      rw [hleft]
      exact md5Blocks_buffer _ _

/-- **An update absorbs its chunk.** -/
theorem Md5Context.Holds.update {ctx : Md5Context} {data : List UInt8} (h : ctx.Holds data)
    (chunk : List UInt8) : (md5Update ctx chunk).Holds (data ++ chunk) := by
  obtain ⟨hcount, hstate, hbuffer⟩ := md5Update_spec ctx chunk
  have hcount' : (md5Update ctx chunk).count = UInt64.ofNat (data ++ chunk).length := by
    rw [hcount, h.count, List.length_append, UInt64.ofNat_add]
  have hpending : (md5Update ctx chunk).pending = Blocks.rest 64 (ctx.pending ++ chunk) := by
    rw [← hbuffer, h.index, Md5Context.pending, hcount', count_mod, List.length_append,
      Nat.mod_add_mod]
  refine ⟨?_, hcount'⟩
  rw [hstate, hpending]
  exact h.absorbed.feed (by decide) chunk

theorem Md5Context.Holds.updates {ctx : Md5Context} {data : List UInt8} (h : ctx.Holds data)
    (chunks : List (List UInt8)) : (chunks.foldl md5Update ctx).Holds (data ++ chunks.flatten) := by
  induction chunks generalizing ctx data with
  | nil => simpa using h
  | cons chunk chunks ih =>
      rw [List.foldl_cons, List.flatten_cons, ← List.append_assoc]
      exact ih (h.update chunk)

/-! ## The padding -/

/-- The loop pads to 56 of 64 bytes, however many are buffered. -/
theorem md5PadLoop_spec (fuel : Nat) (ctx : Md5Context) (zeros : Nat) (hfuel : zeros < fuel)
    (hzeros : ((ctx.count % 64).toNat + zeros) % 64 = 56)
    (hleast : ∀ k < zeros, ((ctx.count % 64).toNat + k) % 64 ≠ 56) :
    md5PadLoop fuel ctx =
      some ((List.replicate zeros [0]).foldl md5Update ctx) := by
  induction fuel generalizing ctx zeros with
  | zero => omega
  | succ fuel ih =>
      have hindex : (ctx.count % 64).toNat = ctx.count.toNat % 64 := UInt64.toNat_mod _ _
      have hdone : ctx.count % 64 = 56 ↔ (ctx.count % 64).toNat = 56 :=
        ⟨fun heq => by rw [heq]; rfl, fun heq => UInt64.toNat_inj.mp heq⟩
      unfold md5PadLoop
      cases zeros with
      | zero =>
          rw [if_pos (hdone.mpr (by omega))]
          rfl
      | succ zeros =>
          have hnot := hleast 0 (by omega)
          rw [if_neg (fun heq => hnot (by rw [hdone.mp heq]))]
          have hcount := (md5Update_spec ctx [0]).1
          have hnext : ((md5Update ctx [0]).count % 64).toNat =
              ((ctx.count % 64).toNat + 1) % 64 := by
            rw [hcount, UInt64.toNat_mod, UInt64.toNat_add, hindex]
            simp only [List.length_cons, List.length_nil]
            have hone : (UInt64.ofNat (0 + 1)).toNat = 1 := rfl
            have hsix : UInt64.toNat 64 = 64 := rfl
            rw [hone, hsix]
            omega
          rw [ih (md5Update ctx [0]) zeros (by omega) (by rw [hnext]; omega) (fun k hk => ?_)]
          · rfl
          · rw [hnext]
            have hk' := hleast (k + 1) (by omega)
            omega

/-- The zeros that are missing behind `index` bytes. -/
theorem least_zeros {index : Nat} (hindex : index < 64) :
    (index + (120 - index) % 64) % 64 = 56 ∧
      ∀ k < (120 - index) % 64, (index + k) % 64 ≠ 56 := by
  constructor
  · omega
  · intro k hk
    omega

theorem md5PadLoop_total (ctx : Md5Context) : md5PadLoop 64 ctx =
    some ((List.replicate ((120 - (ctx.count % 64).toNat) % 64) [0]).foldl md5Update ctx) := by
  have hindex : (ctx.count % 64).toNat < 64 := by
    rw [UInt64.toNat_mod]
    exact Nat.mod_lt _ (by decide)
  obtain ⟨hzeros, hleast⟩ := least_zeros hindex
  exact md5PadLoop_spec 64 ctx _ (Nat.mod_lt _ (by decide)) hzeros hleast

/-- Finalizing feeds the padding through the update. -/
theorem Md5Context.Holds.finalize {ctx : Md5Context} {data : List UInt8} (h : ctx.Holds data) :
    md5Finalize ctx = some (md5 data) := by
  have hmarked := h.update [0x80]
  have hindex : (data ++ [0x80]).length % 64 = (data.length + 1) % 64 := by
    rw [List.length_append]
    rfl
  have hzeros : (120 - (data.length + 1) % 64) % 64 = (119 - data.length % 64) % 64 := by omega
  have hpadded := hmarked.updates (List.replicate ((119 - data.length % 64) % 64) [0])
  have hcounted := hpadded.update (countBytes (UInt64.ofNat (8 * data.length)))
  have hflat : (List.replicate ((119 - data.length % 64) % 64) [(0 : UInt8)]).flatten =
      List.replicate ((119 - data.length % 64) % 64) 0 := List.flatten_replicate_singleton
  have hpad : data ++ [0x80] ++ List.replicate ((119 - data.length % 64) % 64) 0 ++
      countBytes (UInt64.ofNat (8 * data.length)) = md5Pad data := by
    simp only [md5Pad, countBytes, List.append_assoc, List.cons_append, List.nil_append]
  have hbits : ctx.count * 8 = UInt64.ofNat (8 * data.length) := by
    rw [h.count, Nat.mul_comm, UInt64.ofNat_mul]
    rfl
  rw [hflat, hpad] at hcounted
  unfold md5Finalize
  rw [md5PadLoop_total, hmarked.index, hindex, hzeros, hbits]
  simp only [Option.map_some]
  rw [md5_eq, hcounted.absorbed.state]

end UavBluetooth.Util
