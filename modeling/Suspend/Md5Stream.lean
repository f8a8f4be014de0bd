import Suspend.Md5

set_option autoImplicit false

namespace Suspend

open Foundation.FixedWidth Foundation.Memory

namespace Md5

section Buffer

variable {buffer src : Bytes} {index : Nat}

theorem memcpy_length (fits : index + src.length ≤ buffer.length) :
    (memcpy buffer index src).length = buffer.length := by
  rw [memcpy, List.length_append, overwrite_length (by rw [List.length_drop]; omega),
    List.length_take, List.length_drop]
  omega

theorem memcpy_take (inside : index ≤ buffer.length) :
    (memcpy buffer index src).take (index + src.length) = buffer.take index ++ src := by
  have front : (buffer.take index).length = index := by
    rw [List.length_take]
    omega
  rw [memcpy, overwrite, ← List.append_assoc]
  apply List.take_left'
  rw [List.length_append, front]

theorem memcpy_zero_take : (memcpy buffer 0 src).take src.length = src := by
  have front := @memcpy_take buffer src 0 (Nat.zero_le _)
  rwa [Nat.zero_add, List.take_zero, List.nil_append] at front

end Buffer

/-- What `total` stands for. -/
def Md5Ctx.total (ctx : Md5Ctx) : Nat := ctx.total1.toNat * 2 ^ 32 + ctx.total0.toNat

/-- The carry is right for less than 4 GB at a time. -/
theorem Md5Ctx.count_total (ctx : Md5Ctx) {len : Nat} (small : len < 2 ^ 32) :
    (ctx.count len).total = (ctx.total + len) % 2 ^ 64 := by
  have low := ctx.total0.isLt
  have high := ctx.total1.isLt
  unfold total count
  dsimp only
  rw [BitVec.toNat_add, BitVec.toNat_ofNat, Nat.mod_eq_of_lt small]
  by_cases carry : (ctx.total0.toNat + len) % 2 ^ 32 < len
  · rw [if_pos carry, BitVec.toNat_add]
    have one : (1 : Word).toNat = 1 := rfl
    rw [one]
    omega
  · rw [if_neg carry]
    omega

/-- A context has taken in all of the data but the pending bytes. -/
structure Stands (order : ByteOrder) (ctx : Md5Ctx) (pending data : Bytes) : Prop where
  taken : @Foundation.BlockHash.Holds UInt8 Registers 64 (compress order) startRegisters
    ctx.toRegisters pending data
  room : ctx.buffer.length = 128
  total : ctx.total = (data.length - pending.length) % 2 ^ 64

namespace Stands

variable {order : ByteOrder} {ctx : Md5Ctx} {front pending data : Bytes}

theorem start {buffer : Bytes} (room : buffer.length = 128) :
    Stands order (md5InitCtx buffer) [] [] :=
  ⟨Foundation.BlockHash.Holds.nil startRegisters, room, by simp [Md5Ctx.total, md5InitCtx]⟩

theorem put (stands : Stands order ctx pending data) (more : Bytes) :
    Stands order ctx (pending ++ more) (data ++ more) := by
  refine ⟨stands.taken.put more, stands.room, ?_⟩
  rw [stands.total, List.length_append, List.length_append, Nat.add_sub_add_right]

theorem rebuffer (stands : Stands order ctx pending data) {buffer : Bytes}
    (room : buffer.length = 128) (buflen : Nat) :
    Stands order { ctx with buffer := buffer, buflen := buflen } pending data :=
  ⟨stands.taken, room, stands.total⟩

theorem pending_le (stands : Stands order ctx pending data) : pending.length ≤ data.length := by
  obtain ⟨whole, split, _⟩ := stands.taken
  rw [split, List.length_append]
  exact Nat.le_add_left _ _

theorem process (stands : Stands order ctx (front ++ pending) data)
    (aligned : 64 ∣ front.length) (small : front.length < 2 ^ 32) :
    Stands order (md5ProcessBlock order front ctx) pending data := by
  have few := stands.pending_le
  have total := stands.total
  have counted := ctx.count_total small
  rw [List.length_append] at few total
  refine ⟨stands.taken.take (by decide) aligned, stands.room, ?_⟩
  change (ctx.count front.length).total = _
  rw [counted, total, Nat.mod_add_mod]
  congr 1
  omega

/-- The whole blocks at the front of the buffer are processed, and the rest is moved there. -/
theorem flush {whole left count : Nat}
    (stands : Stands order ctx (ctx.buffer.take count ++ pending) data) (aligned : 64 ∣ whole)
    (parts : whole + left = count) (inside : count ≤ 128) :
    let buffer := memcpy ctx.buffer 0 ((ctx.buffer.drop whole).take left)
    Stands order
      { md5ProcessBlock order (ctx.buffer.take whole) ctx with buffer := buffer, buflen := left }
      (buffer.take left ++ pending) data := by
  have room := stands.room
  have kept : ((ctx.buffer.drop whole).take left).length = left := by
    rw [List.length_take, List.length_drop]
    omega
  have blocks : (ctx.buffer.take whole).length = whole := by
    rw [List.length_take]
    omega
  have moved := @memcpy_zero_take ctx.buffer ((ctx.buffer.drop whole).take left)
  rw [kept] at moved
  intro buffer
  rw [moved]
  rw [← parts, List.take_add, List.append_assoc] at stands
  apply (stands.process (by rwa [blocks]) (by omega)).rebuffer
  exact (memcpy_length (by omega)).trans room

end Stands

/-- A context between two calls. -/
structure Md5Ctx.Holds (order : ByteOrder) (ctx : Md5Ctx) (data : Bytes) : Prop where
  stands : Stands order ctx (ctx.buffer.take ctx.buflen) data
  few : ctx.buflen ≤ 64

theorem md5InitCtx_holds (order : ByteOrder) {buffer : Bytes} (room : buffer.length = 128) :
    (md5InitCtx buffer).Holds order [] :=
  ⟨Stands.start room, Nat.zero_le _⟩

section Process

variable {order : ByteOrder} {ctx : Md5Ctx} {data more : Bytes}

theorem Md5Ctx.Holds.pending_length (holds : ctx.Holds order data) :
    (ctx.buffer.take ctx.buflen).length = ctx.buflen := by
  have few := holds.few
  rw [List.length_take, holds.stands.room]
  omega

/-- The buffer takes what comes, and keeps less than a block unless everything fits. -/
theorem fillBuffer_stands (holds : ctx.Holds order data) :
    let filled := fillBuffer order more ctx
    Stands order filled.2 (filled.2.buffer.take filled.2.buflen ++ filled.1) (data ++ more) ∧
      filled.2.buflen ≤ 64 ∧ (filled.1 ≠ [] → filled.2.buflen = 0) ∧
      filled.1.length ≤ more.length := by
  have few := holds.few
  have room := holds.stands.room
  have pending := holds.pending_length
  unfold fillBuffer
  by_cases empty : ctx.buflen = 0
  · rw [if_neg (not_not_intro empty)]
    exact ⟨holds.stands.put more, few, fun _ => empty, le_refl _⟩
  · rw [if_pos empty]
    dsimp only
    generalize adds : (if 128 - ctx.buflen > more.length then more.length
      else 128 - ctx.buflen) = add
    have fits : add ≤ more.length ∧ ctx.buflen + add ≤ 128 ∧
        (add < more.length → ctx.buflen + add = 128) := by
      split at adds <;> omega
    obtain ⟨enough, inside, whole⟩ := fits
    have taken : (more.take add).length = add := by
      rw [List.length_take]
      omega
    let buffer := memcpy ctx.buffer ctx.buflen (more.take add)
    have length : buffer.length = 128 := by
      rw [memcpy_length (by omega), room]
    have front : buffer.take (ctx.buflen + add) = ctx.buffer.take ctx.buflen ++ more.take add := by
      have front := @memcpy_take ctx.buffer (more.take add) ctx.buflen (by omega)
      rwa [taken] at front
    have stands : Stands order { ctx with buffer := buffer, buflen := ctx.buflen + add }
        (buffer.take (ctx.buflen + add) ++ more.drop add) (data ++ more) := by
      rw [front, List.append_assoc, List.take_append_drop]
      exact (holds.stands.put more).rebuffer length _
    have rest : more.drop add ≠ [] → ctx.buflen + add = 128 := by
      intro left
      apply whole
      by_contra none
      exact left (List.drop_eq_nil_of_le (by omega))
    have shorter : (more.drop add).length ≤ more.length := by
      rw [List.length_drop]
      omega
    by_cases many : ctx.buflen + add > 64
    · rw [if_pos many]
      generalize ctx.buflen + add = count at inside stands rest
      refine ⟨stands.flush (Nat.dvd_mul_left _ _) (Nat.div_add_mod' _ _) inside,
        (Nat.mod_lt count (by decide)).le, fun left => ?_, shorter⟩
      dsimp only
      rw [rest left]
    · rw [if_neg many]
      refine ⟨stands, Nat.not_lt.mp many, fun left => ?_, shorter⟩
      exact absurd ((rest left).symm ▸ (by decide : 128 > 64)) many

theorem copyBlocks_stands {fuel : Nat} (stands : Stands order ctx more data)
    (enough : more.length ≤ fuel) :
    let copied := copyBlocks order fuel more ctx
    Stands order copied.2 copied.1 data ∧ copied.2.buflen = ctx.buflen ∧
      copied.1.length ≤ 64 := by
  induction fuel generalizing more ctx with
  | zero =>
      have none : more.length ≤ 64 := enough.trans (Nat.zero_le _)
      exact ⟨stands, rfl, none⟩
  | succ fuel ih =>
      unfold copyBlocks
      by_cases many : more.length > 64
      · rw [if_pos many]
        have block : (more.take 64).length = 64 := by
          rw [List.length_take]
          omega
        have room : (memcpy ctx.buffer 0 (more.take 64)).length = 128 := by
          rw [memcpy_length (by rw [stands.room]; omega), stands.room]
        rw [← List.take_append_drop 64 more] at stands
        have copied := (stands.rebuffer room ctx.buflen).process (by rw [block])
          (by rw [block]; decide)
        exact ih copied (by rw [List.length_drop]; omega)
      · rw [if_neg many]
        exact ⟨stands, rfl, Nat.not_lt.mp many⟩

theorem wholeBlocks_stands {arch : Arch} {address : Nat}
    (stands : Stands arch.order ctx (ctx.buffer.take ctx.buflen ++ more) data)
    (empty : more ≠ [] → ctx.buflen = 0) (small : more.length < 2 ^ 32) :
    let whole := wholeBlocks arch address more ctx
    Stands arch.order whole.2 (whole.2.buffer.take whole.2.buflen ++ whole.1) data ∧
      whole.2.buflen = ctx.buflen ∧ whole.1.length ≤ 64 ∧ (whole.1 ≠ [] → ctx.buflen = 0) := by
  unfold wholeBlocks
  by_cases complete : more.length ≥ 64
  · have none := empty (by
      rintro rfl
      exact absurd complete (by decide))
    rw [none, List.take_zero, List.nil_append] at stands
    rw [if_pos complete]
    by_cases unaligned : arch.stringArchUnaligned = false ∧ address % 4 ≠ 0
    · rw [if_pos unaligned]
      obtain ⟨copied, same, few⟩ := copyBlocks_stands stands (le_refl _)
      intro whole
      rw [same, none, List.take_zero, List.nil_append]
      exact ⟨copied, rfl, few, fun _ => rfl⟩
    · rw [if_neg unaligned]
      have blocks : (more.take (more.length / 64 * 64)).length = more.length / 64 * 64 := by
        rw [List.length_take]
        omega
      rw [← List.take_append_drop (more.length / 64 * 64) more] at stands
      have processed := stands.process (by rw [blocks]; exact Nat.dvd_mul_left _ _)
        (by rw [blocks]; omega)
      intro whole
      have same : whole.2.buflen = 0 := none
      rw [same, none, List.take_zero, List.nil_append]
      refine ⟨processed, rfl, ?_, fun _ => rfl⟩
      change (more.drop (more.length / 64 * 64)).length ≤ 64
      rw [List.length_drop]
      omega
  · rw [if_neg complete]
    exact ⟨stands, rfl, (Nat.lt_of_not_le complete).le, empty⟩

theorem keepRest_holds (stands : Stands order ctx (ctx.buffer.take ctx.buflen ++ more) data)
    (few : ctx.buflen ≤ 64) (empty : more ≠ [] → ctx.buflen = 0) (short : more.length ≤ 64) :
    (keepRest order more ctx).Holds order data := by
  unfold keepRest
  by_cases some : more.length > 0
  · have none := empty (List.ne_nil_of_length_pos some)
    have room := stands.room
    rw [none, List.take_zero, List.nil_append] at stands
    rw [if_pos some, none, Nat.zero_add]
    have length : (memcpy ctx.buffer 0 more).length = 128 := by
      rw [memcpy_length (by omega), room]
    have kept : Stands order { ctx with buffer := memcpy ctx.buffer 0 more, buflen := more.length }
        ((memcpy ctx.buffer 0 more).take more.length) data := by
      rw [memcpy_zero_take]
      exact stands.rebuffer length _
    dsimp only
    by_cases full : more.length ≥ 64
    · rw [if_pos full]
      rw [← List.append_nil (List.take _ _)] at kept
      have flushed := kept.flush (by decide : 64 ∣ 64) (Nat.add_sub_cancel' full) (by omega)
      dsimp only at flushed
      rw [List.append_nil] at flushed
      exact ⟨flushed, (Nat.sub_le _ _).trans short⟩
    · rw [if_neg full]
      exact ⟨kept, short⟩
  · rw [if_neg some]
    obtain rfl : more = [] := List.eq_nil_of_length_eq_zero (by omega)
    rw [List.append_nil] at stands
    exact ⟨stands, few⟩

/-- `md5_process_bytes` puts its data behind those that are there. -/
theorem md5ProcessBytes_holds {arch : Arch} (holds : ctx.Holds arch.order data)
    (small : more.length < 2 ^ 32) (address : Nat) :
    (md5ProcessBytes arch address more ctx).Holds arch.order (data ++ more) := by
  obtain ⟨stands, few, empty, shorter⟩ := @fillBuffer_stands arch.order ctx data more holds
  obtain ⟨whole, same, short, none⟩ := @wholeBlocks_stands _ _ _ arch
    (address + (more.length - (fillBuffer arch.order more ctx).1.length)) stands empty (by omega)
  exact keepRest_holds whole (by rwa [same]) (by rwa [same]) short

end Process

/-- The number of bits fills the last eight bytes. -/
theorem bits_stored {ctx : Md5Ctx} {length : Nat} (total : ctx.total = length % 2 ^ 64) :
    toBytes 4 (ctx.total0 <<< 3).toNat ++
        toBytes 4 ((ctx.total1 <<< 3) ||| (ctx.total0 >>> 29)).toNat =
      toBytes 8 (8 * length) := by
  have low := ctx.total0.isLt
  have high := ctx.total1.isLt
  unfold Md5Ctx.total at total
  have apart : (ctx.total1 <<< 3) &&& (ctx.total0 >>> 29) = 0#32 := by
    apply BitVec.eq_of_getLsbD_eq
    intro index inside
    rw [BitVec.getLsbD_and, BitVec.getLsbD_shiftLeft, BitVec.getLsbD_ushiftRight,
      BitVec.getLsbD_zero]
    by_cases early : index < 3
    · simp [early]
    · rw [BitVec.getLsbD_of_ge ctx.total0 (29 + index) (by omega), Bool.and_false]
  have split : toBytes 8 (8 * length) =
      toBytes 4 (8 * length) ++ toBytes 4 (8 * length / 256 ^ 4) := toBytes_add 4 4 _
  rw [split, ← toBytes_mod 4 (8 * length), ← toBytes_mod 4 (8 * length / 256 ^ 4),
    ← BitVec.add_eq_or_of_and_eq_zero _ _ apart, BitVec.toNat_add, BitVec.toNat_shiftLeft,
    BitVec.toNat_shiftLeft, BitVec.toNat_ushiftRight, Nat.shiftLeft_eq, Nat.shiftLeft_eq,
    Nat.shiftRight_eq_div_pow]
  congr 2 <;> omega

/-- What is put behind the data fills up the block. -/
theorem fillbuf_take {bytes length : Nat} (few : bytes ≤ 64) (same : bytes % 64 = length % 64) :
    fillbuf.take (if bytes ≥ 56 then 64 + 56 - bytes else 56 - bytes) =
      0x80 :: List.replicate ((119 - length % 64) % 64) 0 := by
  have count : (if bytes ≥ 56 then 64 + 56 - bytes else 56 - bytes) =
      (119 - length % 64) % 64 + 1 := by
    split <;> omega
  rw [count, fillbuf, List.take_succ_cons, List.take_replicate, Nat.min_eq_left (by omega)]

theorem output_read (order : ByteOrder) (ctx : Md5Ctx) :
    md5ReadCtx order ctx = ctx.toRegisters.output := by
  unfold md5ReadCtx Registers.output
  rw [store_SWAP, store_SWAP, store_SWAP, store_SWAP]

/-- Three pieces that are copied one behind the other. -/
theorem memcpy_pieces {buffer first second third : Bytes} {index : Nat}
    (fits : index + first.length + second.length + third.length ≤ buffer.length) :
    let filled := memcpy (memcpy (memcpy buffer index first) (index + first.length) second)
      (index + first.length + second.length) third
    filled.length = buffer.length ∧
      filled.take (index + first.length + second.length + third.length) =
        buffer.take index ++ (first ++ (second ++ third)) := by
  have one := @memcpy_length buffer first index (by omega)
  have two := @memcpy_length (memcpy buffer index first) second (index + first.length) (by omega)
  constructor
  · rw [memcpy_length (by omega), two, one]
  · rw [memcpy_take (by omega), memcpy_take (by omega), memcpy_take (by omega),
      List.append_assoc, List.append_assoc]

/-- `md5_finish_ctx` processes what is pending and the padding, within the buffer. -/
theorem padded_holds {order : ByteOrder} {ctx : Md5Ctx} {data : Bytes}
    (holds : ctx.Holds order data) :
    (padded order ctx).buffer.length = 128 ∧
      (padded order ctx).toRegisters =
        Foundation.BlockHash.absorb 64 (compress order) ctx.toRegisters
          (ctx.buffer.take ctx.buflen ++ padding data.length) := by
  have few := holds.few
  have room := holds.stands.room
  have pending := holds.pending_length
  have less := holds.stands.pending_le
  have same := holds.stands.taken.pending_mod
  rw [pending] at less same
  have total : (ctx.count ctx.buflen).total = data.length % 2 ^ 64 := by
    rw [ctx.count_total (by omega), holds.stands.total, pending, Nat.mod_add_mod,
      Nat.sub_add_cancel less]
  have bits := bits_stored total
  have fill := fillbuf_take few same
  let first : Bytes := 0x80 :: List.replicate ((119 - data.length % 64) % 64) 0
  let low := toBytes 4 ((ctx.count ctx.buflen).total0 <<< 3).toNat
  let high := toBytes 4
    (((ctx.count ctx.buflen).total1 <<< 3) ||| ((ctx.count ctx.buflen).total0 >>> 29)).toNat
  have pad : (if ctx.buflen ≥ 56 then 64 + 56 - ctx.buflen else 56 - ctx.buflen) =
      first.length := by
    rw [List.length_cons, List.length_replicate]
    split <;> omega
  have four (value : Nat) : (toBytes 4 value).length = 4 := toBytes_length 4 value
  have fits : ctx.buflen + first.length + low.length + high.length ≤ ctx.buffer.length := by
    rw [← pad, four, four]
    split <;> omega
  obtain ⟨length, front⟩ := memcpy_pieces fits
  have behind : first ++ (low ++ high) = padding data.length := by
    rw [bits]
    rfl
  rw [← behind, ← front]
  unfold padded
  dsimp only
  rw [store_SWAP, store_SWAP, fill, pad]
  exact ⟨length.trans room, rfl⟩

/-- The padding fills up the last block. -/
theorem padding_aligned (pending : Bytes) {length : Nat}
    (same : pending.length % 64 = length % 64) :
    64 ∣ (pending ++ padding length).length := by
  simp only [padding, List.length_append, List.length_cons, List.length_replicate, toBytes_length]
  omega

/-- `md5_finish_ctx` gives the digest of all that has been put in. -/
theorem md5FinishCtx_digest {order : ByteOrder} {ctx : Md5Ctx} {data : Bytes}
    (holds : ctx.Holds order data) : md5FinishCtx order ctx = digest data := by
  have aligned := padding_aligned _ holds.stands.taken.pending_mod
  have taken := holds.stands.taken.put (padding data.length)
  rw [← List.append_nil (_ ++ padding _)] at taken
  have finished := (taken.take (by decide) aligned).finished
  have plain := Foundation.BlockHash.absorb_congr
    (fun state block whole => compress_eq order state whole) startRegisters
    (data ++ padding data.length)
  rw [md5FinishCtx, output_read, (padded_holds holds).2, finished, plain]
  rfl

/-- Whatever pieces the data come in, wherever they lie and whatever was in the buffer, the digest
is that of all of them, and nothing is written behind the buffer. -/
theorem md5_pieces (arch : Arch) (stack : Bytes) (room : stack.length = 128)
    (pieces : List (Nat × Bytes)) (small : ∀ piece ∈ pieces, piece.2.length < 2 ^ 32) :
    let ctx := pieces.foldl (fun ctx piece => md5ProcessBytes arch piece.1 piece.2 ctx)
      (md5InitCtx stack)
    md5FinishCtx arch.order ctx = digest (pieces.map Prod.snd).flatten ∧
      ctx.buffer.length = 128 ∧ ctx.buflen ≤ 64 ∧ (padded arch.order ctx).buffer.length = 128 := by
  have holds : ∀ (ctx : Md5Ctx) (data : Bytes), ctx.Holds arch.order data →
      (pieces.foldl (fun ctx piece => md5ProcessBytes arch piece.1 piece.2 ctx) ctx).Holds
        arch.order (data ++ (pieces.map Prod.snd).flatten) := by
    induction pieces with
    | nil =>
        intro ctx data holds
        simpa using holds
    | cons piece rest ih =>
        intro ctx data holds
        have next := ih (fun piece member => small piece (List.mem_cons_of_mem _ member)) _ _
          (md5ProcessBytes_holds holds (small piece List.mem_cons_self) piece.1)
        rwa [List.append_assoc] at next
  have all := holds _ [] (md5InitCtx_holds arch.order room)
  exact ⟨md5FinishCtx_digest all, all.stands.room, all.few, (padded_holds all).1⟩

/-- `"a"` at an odd address, and `"bc"`. -/
theorem md5_abc : md5FinishCtx .big
    ([(1, [0x61]), (6, [0x62, 0x63])].foldl
      (fun ctx piece => md5ProcessBytes ⟨.big, false⟩ piece.1 piece.2 ctx)
        (md5InitCtx (List.replicate 128 0xff))) = digest [0x61, 0x62, 0x63] :=
  (md5_pieces ⟨.big, false⟩ (List.replicate 128 0xff) List.length_replicate
    [(1, [0x61]), (6, [0x62, 0x63])] (by decide)).1

set_option maxRecDepth 100000 in
example : digest [0x61, 0x62, 0x63] =
    [0x90, 0x01, 0x50, 0x98, 0x3c, 0xd2, 0x4f, 0xb0, 0xd6, 0x96, 0x3f, 0x7d, 0x28, 0xe1, 0x7f,
      0x72] := by
  decide +kernel

end Md5

end Suspend
