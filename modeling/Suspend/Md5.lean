import Mathlib.Tactic.IntervalCases
import Suspend.Foundation.BlockHash
import Suspend.Foundation.FixedWidth
import Suspend.Foundation.Memory
import Suspend.Header

set_option autoImplicit false

namespace Suspend

open Foundation.FixedWidth Foundation.Memory

namespace Md5

abbrev Word := BitVec 32

structure Registers where
  A : Word
  B : Word
  C : Word
  D : Word
deriving DecidableEq

/-- `struct md5_ctx`, its `total` as the low and the high word. -/
structure Md5Ctx extends Registers where
  total0 : Word
  total1 : Word
  buflen : Nat
  buffer : Bytes

/-- What the code is compiled for: the byte order, and `_STRING_ARCH_unaligned`. -/
structure Arch where
  order : ByteOrder
  stringArchUnaligned : Bool

/-- `fillbuf`. -/
def fillbuf : Bytes := 0x80 :: List.replicate 63 0

def startRegisters : Registers := ⟨0x67452301, 0xefcdab89, 0x98badcfe, 0x10325476⟩

/-- `md5_init_ctx`, which leaves the buffer as it was. -/
def md5InitCtx (buffer : Bytes) : Md5Ctx :=
  { startRegisters with total0 := 0, total1 := 0, buflen := 0, buffer := buffer }

/-- A word in memory, as the machine reads it. -/
def load (order : ByteOrder) (bytes : Bytes) : Word :=
  BitVec.ofNat 32 (fromBytes (order.arrange bytes))

def store (order : ByteOrder) (word : Word) : Bytes := order.arrange (toBytes 4 word.toNat)

/-- `SWAP`. -/
def SWAP (order : ByteOrder) (n : Word) : Word :=
  match order with
  | .big => (n <<< 24) ||| ((n &&& 0xff00) <<< 8) ||| ((n >>> 8) &&& 0xff00) ||| (n >>> 24)
  | .little => n

/-- `memcpy(&buffer[at], src, n)`. -/
def memcpy (buffer : Bytes) (index : Nat) (src : Bytes) : Bytes :=
  buffer.take index ++ overwrite src (buffer.drop index)

def rol (x : Word) (n : Nat) : Word := (x <<< n) ||| (x >>> (32 - n))

def FF (b c d : Word) : Word := d ^^^ (b &&& (c ^^^ d))

def FG (b c d : Word) : Word := FF d b c

def FH (b c d : Word) : Word := b ^^^ c ^^^ d

def FI (b c d : Word) : Word := c ^^^ (b ||| ~~~d)

inductive Function where
  | FF
  | FG
  | FH
  | FI
deriving DecidableEq

def Function.apply : Function → Word → Word → Word → Word
  | .FF => Md5.FF
  | .FG => Md5.FG
  | .FH => Md5.FH
  | .FI => Md5.FI

/-- The register that an `OP` assigns to. The other three follow it in a circle. -/
inductive Target where
  | A
  | B
  | C
  | D
deriving DecidableEq

/-- The arguments of an `OP`. -/
structure OP where
  f : Function
  a : Target
  k : Nat
  s : Nat
  T : Word

/-- `a += f (b, c, d) + correct_words[k] + T; a = rol (a, s); a += b`. -/
def OP.value (op : OP) (words : Nat → Word) (a b c d : Word) : Word :=
  rol (a + (op.f.apply b c d + words op.k + op.T)) op.s + b

def Registers.op (words : Nat → Word) (r : Registers) (op : OP) : Registers :=
  match op.a with
  | .A => { r with A := op.value words r.A r.B r.C r.D }
  | .B => { r with B := op.value words r.B r.C r.D r.A }
  | .C => { r with C := op.value words r.C r.D r.A r.B }
  | .D => { r with D := op.value words r.D r.A r.B r.C }

/-- The four rounds. -/
def ops : List OP := [
  ⟨.FF, .A, 0, 7, 0xd76aa478⟩,
  ⟨.FF, .D, 1, 12, 0xe8c7b756⟩,
  ⟨.FF, .C, 2, 17, 0x242070db⟩,
  ⟨.FF, .B, 3, 22, 0xc1bdceee⟩,
  ⟨.FF, .A, 4, 7, 0xf57c0faf⟩,
  ⟨.FF, .D, 5, 12, 0x4787c62a⟩,
  ⟨.FF, .C, 6, 17, 0xa8304613⟩,
  ⟨.FF, .B, 7, 22, 0xfd469501⟩,
  ⟨.FF, .A, 8, 7, 0x698098d8⟩,
  ⟨.FF, .D, 9, 12, 0x8b44f7af⟩,
  ⟨.FF, .C, 10, 17, 0xffff5bb1⟩,
  ⟨.FF, .B, 11, 22, 0x895cd7be⟩,
  ⟨.FF, .A, 12, 7, 0x6b901122⟩,
  ⟨.FF, .D, 13, 12, 0xfd987193⟩,
  ⟨.FF, .C, 14, 17, 0xa679438e⟩,
  ⟨.FF, .B, 15, 22, 0x49b40821⟩,
  ⟨.FG, .A, 1, 5, 0xf61e2562⟩,
  ⟨.FG, .D, 6, 9, 0xc040b340⟩,
  ⟨.FG, .C, 11, 14, 0x265e5a51⟩,
  ⟨.FG, .B, 0, 20, 0xe9b6c7aa⟩,
  ⟨.FG, .A, 5, 5, 0xd62f105d⟩,
  ⟨.FG, .D, 10, 9, 0x02441453⟩,
  ⟨.FG, .C, 15, 14, 0xd8a1e681⟩,
  ⟨.FG, .B, 4, 20, 0xe7d3fbc8⟩,
  ⟨.FG, .A, 9, 5, 0x21e1cde6⟩,
  ⟨.FG, .D, 14, 9, 0xc33707d6⟩,
  ⟨.FG, .C, 3, 14, 0xf4d50d87⟩,
  ⟨.FG, .B, 8, 20, 0x455a14ed⟩,
  ⟨.FG, .A, 13, 5, 0xa9e3e905⟩,
  ⟨.FG, .D, 2, 9, 0xfcefa3f8⟩,
  ⟨.FG, .C, 7, 14, 0x676f02d9⟩,
  ⟨.FG, .B, 12, 20, 0x8d2a4c8a⟩,
  ⟨.FH, .A, 5, 4, 0xfffa3942⟩,
  ⟨.FH, .D, 8, 11, 0x8771f681⟩,
  ⟨.FH, .C, 11, 16, 0x6d9d6122⟩,
  ⟨.FH, .B, 14, 23, 0xfde5380c⟩,
  ⟨.FH, .A, 1, 4, 0xa4beea44⟩,
  ⟨.FH, .D, 4, 11, 0x4bdecfa9⟩,
  ⟨.FH, .C, 7, 16, 0xf6bb4b60⟩,
  ⟨.FH, .B, 10, 23, 0xbebfbc70⟩,
  ⟨.FH, .A, 13, 4, 0x289b7ec6⟩,
  ⟨.FH, .D, 0, 11, 0xeaa127fa⟩,
  ⟨.FH, .C, 3, 16, 0xd4ef3085⟩,
  ⟨.FH, .B, 6, 23, 0x04881d05⟩,
  ⟨.FH, .A, 9, 4, 0xd9d4d039⟩,
  ⟨.FH, .D, 12, 11, 0xe6db99e5⟩,
  ⟨.FH, .C, 15, 16, 0x1fa27cf8⟩,
  ⟨.FH, .B, 2, 23, 0xc4ac5665⟩,
  ⟨.FI, .A, 0, 6, 0xf4292244⟩,
  ⟨.FI, .D, 7, 10, 0x432aff97⟩,
  ⟨.FI, .C, 14, 15, 0xab9423a7⟩,
  ⟨.FI, .B, 5, 21, 0xfc93a039⟩,
  ⟨.FI, .A, 12, 6, 0x655b59c3⟩,
  ⟨.FI, .D, 3, 10, 0x8f0ccc92⟩,
  ⟨.FI, .C, 10, 15, 0xffeff47d⟩,
  ⟨.FI, .B, 1, 21, 0x85845dd1⟩,
  ⟨.FI, .A, 8, 6, 0x6fa87e4f⟩,
  ⟨.FI, .D, 15, 10, 0xfe2ce6e0⟩,
  ⟨.FI, .C, 6, 15, 0xa3014314⟩,
  ⟨.FI, .B, 13, 21, 0x4e0811a1⟩,
  ⟨.FI, .A, 4, 6, 0xf7537e82⟩,
  ⟨.FI, .D, 11, 10, 0xbd3af235⟩,
  ⟨.FI, .C, 2, 15, 0x2ad7d2bb⟩,
  ⟨.FI, .B, 9, 21, 0xeb86d391⟩]

/-- `correct_words` of a block. -/
def correctWords (order : ByteOrder) (block : Bytes) (k : Nat) : Word :=
  SWAP order (load order ((block.drop (4 * k)).take 4))

def Registers.add (r save : Registers) : Registers :=
  ⟨r.A + save.A, r.B + save.B, r.C + save.C, r.D + save.D⟩

/-- What the loop of `md5_process_block` makes of one block. -/
def compress (order : ByteOrder) (save : Registers) (block : Bytes) : Registers :=
  (ops.foldl (Registers.op (correctWords order block)) save).add save

/-- `ctx->total[0] += len; if (ctx->total[0] < len) ++ctx->total[1]`. -/
def Md5Ctx.count (ctx : Md5Ctx) (len : Nat) : Md5Ctx :=
  let total0 := ctx.total0 + BitVec.ofNat 32 len
  { ctx with
    total0 := total0
    total1 := if total0.toNat < len then ctx.total1 + 1 else ctx.total1 }

/-- `md5_process_block`, of a number of bytes that is a multiple of 64. -/
def md5ProcessBlock (order : ByteOrder) (data : Bytes) (ctx : Md5Ctx) : Md5Ctx :=
  { ctx.count data.length with
    toRegisters :=
      Foundation.BlockHash.absorb 64 (compress order) ctx.toRegisters data }

/-- The first part of `md5_process_bytes`: what the buffer takes. -/
def fillBuffer (order : ByteOrder) (data : Bytes) (ctx : Md5Ctx) : Bytes × Md5Ctx :=
  if ctx.buflen ≠ 0 then
    let leftOver := ctx.buflen
    let add := if 128 - leftOver > data.length then data.length else 128 - leftOver
    let filled := { ctx with
      buffer := memcpy ctx.buffer leftOver (data.take add)
      buflen := leftOver + add }
    let ready :=
      if filled.buflen > 64 then
        let processed := md5ProcessBlock order (filled.buffer.take (filled.buflen / 64 * 64)) filled
        let rest := filled.buflen % 64
        { processed with
          buflen := rest
          buffer := memcpy processed.buffer 0
            ((processed.buffer.drop ((leftOver + add) / 64 * 64)).take rest) }
      else filled
    (data.drop add, ready)
  else (data, ctx)

/-- `while (len > 64)`, each block copied to the buffer first. -/
def copyBlocks (order : ByteOrder) : Nat → Bytes → Md5Ctx → Bytes × Md5Ctx
  | 0, data, ctx => (data, ctx)
  | fuel + 1, data, ctx =>
      if data.length > 64 then
        copyBlocks order fuel (data.drop 64) (md5ProcessBlock order (data.take 64)
          { ctx with buffer := memcpy ctx.buffer 0 (data.take 64) })
      else (data, ctx)

/-- The second part: the complete blocks, in place if the address allows it. -/
def wholeBlocks (arch : Arch) (address : Nat) (data : Bytes) (ctx : Md5Ctx) : Bytes × Md5Ctx :=
  if data.length ≥ 64 then
    if arch.stringArchUnaligned = false ∧ address % 4 ≠ 0 then
      copyBlocks arch.order data.length data ctx
    else
      (data.drop (data.length / 64 * 64),
        md5ProcessBlock arch.order (data.take (data.length / 64 * 64)) ctx)
  else (data, ctx)

/-- The third part: the remaining bytes go to the buffer. -/
def keepRest (order : ByteOrder) (data : Bytes) (ctx : Md5Ctx) : Md5Ctx :=
  if data.length > 0 then
    let leftOver := ctx.buflen + data.length
    let filled := { ctx with buffer := memcpy ctx.buffer ctx.buflen data }
    if leftOver ≥ 64 then
      let processed := md5ProcessBlock order (filled.buffer.take 64) filled
      { processed with
        buffer := memcpy processed.buffer 0 ((processed.buffer.drop 64).take (leftOver - 64))
        buflen := leftOver - 64 }
    else { filled with buflen := leftOver }
  else ctx

/-- `md5_process_bytes`, of data at an address. -/
def md5ProcessBytes (arch : Arch) (address : Nat) (data : Bytes) (ctx : Md5Ctx) : Md5Ctx :=
  let filled := fillBuffer arch.order data ctx
  let whole := wholeBlocks arch (address + (data.length - filled.1.length)) filled.1 filled.2
  keepRest arch.order whole.1 whole.2

/-- `md5_read_ctx`. -/
def md5ReadCtx (order : ByteOrder) (ctx : Md5Ctx) : Bytes :=
  store order (SWAP order ctx.A) ++ store order (SWAP order ctx.B) ++
    store order (SWAP order ctx.C) ++ store order (SWAP order ctx.D)

/-- The context that `md5_finish_ctx` leaves. -/
def padded (order : ByteOrder) (ctx : Md5Ctx) : Md5Ctx :=
  let bytes := ctx.buflen
  let counted := ctx.count bytes
  let pad := if bytes ≥ 56 then 64 + 56 - bytes else 56 - bytes
  let filled := memcpy counted.buffer bytes (fillbuf.take pad)
  let low := memcpy filled (bytes + pad) (store order (SWAP order (counted.total0 <<< 3)))
  let high := memcpy low (bytes + pad + 4)
    (store order (SWAP order ((counted.total1 <<< 3) ||| (counted.total0 >>> 29))))
  md5ProcessBlock order (high.take (bytes + pad + 8)) { counted with buffer := high }

/-- `md5_finish_ctx`. -/
def md5FinishCtx (order : ByteOrder) (ctx : Md5Ctx) : Bytes := md5ReadCtx order (padded order ctx)

/-- `md5_buffer`, with what is on the stack in the buffer. -/
def md5Buffer (arch : Arch) (stack : Bytes) (address : Nat) (data : Bytes) : Bytes :=
  md5FinishCtx arch.order (md5ProcessBytes arch address data (md5InitCtx stack))

def F (b c d : Word) : Word := (b &&& c) ||| (~~~b &&& d)

def G (b c d : Word) : Word := (b &&& d) ||| (c &&& ~~~d)

def Function.plain : Function → Word → Word → Word → Word
  | .FF => F
  | .FG => G
  | .FH => Md5.FH
  | .FI => Md5.FI

/-- The function, the word and the shift of a step. The constants are those of the source. -/
def stepFunction (i : Nat) : Function :=
  match i / 16 with
  | 0 => .FF
  | 1 => .FG
  | 2 => .FH
  | _ => .FI

def stepWord (i : Nat) : Nat :=
  match i / 16 with
  | 0 => i
  | 1 => (5 * i + 1) % 16
  | 2 => (3 * i + 5) % 16
  | _ => 7 * i % 16

def stepShift (i : Nat) : Nat :=
  (([[7, 12, 17, 22], [5, 9, 14, 20], [4, 11, 16, 23], [6, 10, 15, 21]].getD (i / 16) []).getD
    (i % 4) 0)

def stepConstant (i : Nat) : Word := (ops.map OP.T).getD i 0

/-- A step with the registers passed around. -/
def step (words : Nat → Word) (r : Registers) (i : Nat) : Registers :=
  let sum := r.A + ((stepFunction i).plain r.B r.C r.D + words (stepWord i) + stepConstant i)
  ⟨r.D, rol sum (stepShift i) + r.B, r.B, r.C⟩

def littleWords (block : Bytes) (k : Nat) : Word :=
  BitVec.ofNat 32 (fromBytes ((block.drop (4 * k)).take 4))

def plainCompress (save : Registers) (block : Bytes) : Registers :=
  ((List.range 64).foldl (step (littleWords block)) save).add save

/-- What a message is padded with: a bit, zeros, and the number of its bits. -/
def padding (length : Nat) : Bytes :=
  0x80 :: List.replicate ((119 - length % 64) % 64) 0 ++ toBytes 8 (8 * length)

def Registers.output (r : Registers) : Bytes :=
  toBytes 4 r.A.toNat ++ toBytes 4 r.B.toNat ++ toBytes 4 r.C.toNat ++ toBytes 4 r.D.toNat

/-- The digest of a message. -/
def digest (message : Bytes) : Bytes :=
  (Foundation.BlockHash.absorb 64 plainCompress startRegisters
    (message ++ padding message.length)).output

theorem FF_eq (x y z : Word) : FF x y z = F x y z := by
  unfold FF F
  ext index inside
  simp only [BitVec.getElem_xor, BitVec.getElem_and, BitVec.getElem_or, BitVec.getElem_not]
  cases x[index] <;> cases y[index] <;> cases z[index] <;> rfl

theorem FG_eq (x y z : Word) : FG x y z = G x y z := by
  rw [FG, FF_eq]
  unfold F G
  ext index inside
  simp only [BitVec.getElem_and, BitVec.getElem_or, BitVec.getElem_not]
  cases x[index] <;> cases y[index] <;> cases z[index] <;> rfl

theorem Function.apply_eq (f : Function) : f.apply = f.plain := by
  funext b c d
  cases f with
  | FF => exact FF_eq b c d
  | FG => exact FG_eq b c d
  | FH => rfl
  | FI => rfl

/-- The register that step `i` assigns to. -/
def stepTarget (i : Nat) : Target := [.A, .D, .C, .B].getD (i % 4) .A

/-- The registers as step `i` finds them. -/
def view (i : Nat) (r : Registers) : Registers :=
  match i % 4 with
  | 0 => r
  | 1 => ⟨r.D, r.A, r.B, r.C⟩
  | 2 => ⟨r.C, r.D, r.A, r.B⟩
  | _ => ⟨r.B, r.C, r.D, r.A⟩

theorem ops_length : ops.length = 64 := by decide

theorem ops_row : ∀ i < 64, (ops.map fun op => (op.f, op.a, op.k, op.s))[i]? =
    some (stepFunction i, stepTarget i, stepWord i, stepShift i) := by decide

theorem ops_getElem {i : Nat} (inside : i < ops.length) :
    ops[i] = ⟨stepFunction i, stepTarget i, stepWord i, stepShift i, stepConstant i⟩ := by
  have row := ops_row i inside
  rw [List.getElem?_map, List.getElem?_eq_getElem inside, Option.map_some] at row
  have same := Option.some.inj row
  simp only [Prod.mk.injEq] at same
  obtain ⟨f, a, k, s⟩ := same
  have T : stepConstant i = ops[i].T := by
    rw [stepConstant, List.getD_eq_getElem?_getD, List.getElem?_map,
      List.getElem?_eq_getElem inside, Option.map_some, Option.getD_some]
  rw [T, ← f, ← a, ← k, ← s]

/-- An unrolled step is a step. -/
theorem view_op (words : Nat → Word) (r : Registers) {i : Nat} (inside : i < ops.length) :
    view (i + 1) (r.op words ops[i]) = step words (view i r) i := by
  have four : i % 4 < 4 := Nat.mod_lt _ (by decide)
  rw [ops_getElem inside]
  unfold view step Registers.op OP.value stepTarget
  rw [Function.apply_eq, Nat.add_mod]
  interval_cases i % 4 <;> rfl

theorem view_ops (words : Nat → Word) (r : Registers) (count : Nat) (few : count ≤ ops.length) :
    view count ((ops.take count).foldl (Registers.op words) r) =
      (List.range count).foldl (step words) r := by
  induction count with
  | zero => rfl
  | succ count ih =>
      rw [List.take_succ_eq_append_getElem few, List.foldl_append, List.foldl_cons, List.foldl_nil,
        view_op, ih (Nat.le_of_succ_le few), List.range_succ, List.foldl_append, List.foldl_cons,
        List.foldl_nil]

theorem SWAP_SWAP (order : ByteOrder) (n : Word) : SWAP order (SWAP order n) = n := by
  cases order with
  | little => rfl
  | big =>
      apply BitVec.eq_of_getLsbD_eq
      intro index inside
      interval_cases index <;> simp [SWAP]

theorem toBytes_four (n : Word) : toBytes 4 n.toNat =
    [UInt8.ofBitVec (n.setWidth 8), UInt8.ofBitVec ((n >>> 8).setWidth 8),
      UInt8.ofBitVec ((n >>> 16).setWidth 8), UInt8.ofBitVec ((n >>> 24).setWidth 8)] := by
  have byte (value : Nat) : UInt8.ofNat value = UInt8.ofBitVec (BitVec.ofNat 8 value) := rfl
  have shifted (shift : Nat) :
      BitVec.ofNat 8 (n.toNat / 2 ^ shift) = (n >>> shift).setWidth 8 := by
    apply BitVec.eq_of_toNat_eq
    rw [BitVec.toNat_ofNat, BitVec.toNat_setWidth, BitVec.toNat_ushiftRight,
      Nat.shiftRight_eq_div_pow]
  have whole := shifted 0
  rw [Nat.pow_zero, Nat.div_one, BitVec.ushiftRight_zero] at whole
  simp only [toBytes, Nat.div_div_eq_div_mul, byte, whole]
  rw [← shifted 8, ← shifted 16, ← shifted 24]
  rfl

theorem store_SWAP (order : ByteOrder) (n : Word) :
    store order (SWAP order n) = toBytes 4 n.toNat := by
  cases order with
  | little => rfl
  | big =>
      unfold store
      rw [toBytes_four, toBytes_four]
      simp only [ByteOrder.arrange, List.reverse_cons, List.reverse_nil, List.nil_append,
        List.cons_append, List.cons.injEq, and_true]
      refine ⟨?_, ?_, ?_, ?_⟩ <;> congr 1 <;> apply BitVec.eq_of_getLsbD_eq <;>
        intro index inside <;> interval_cases index <;> simp [SWAP]

/-- A word is read as it would be on a machine with the lowest byte first. -/
theorem SWAP_load (order : ByteOrder) {bytes : Bytes} (four : bytes.length = 4) :
    SWAP order (load order bytes) = BitVec.ofNat 32 (fromBytes bytes) := by
  cases order with
  | little => rfl
  | big =>
      have back := toBytes_fromBytes bytes
      have small : fromBytes bytes < 2 ^ 32 := by
        have bound := fromBytes_lt bytes
        rwa [four] at bound
      rw [four] at back
      have stored := store_SWAP .big (BitVec.ofNat 32 (fromBytes bytes))
      rw [BitVec.toNat_ofNat, Nat.mod_eq_of_lt small, back, store] at stored
      have turned : ByteOrder.arrange .big bytes =
          toBytes 4 (SWAP .big (BitVec.ofNat 32 (fromBytes bytes))).toNat := by
        have turned := congrArg (ByteOrder.arrange .big) stored
        rw [ByteOrder.arrange_arrange] at turned
        exact turned.symm
      have loaded : load .big bytes = SWAP .big (BitVec.ofNat 32 (fromBytes bytes)) := by
        rw [load, turned, fromBytes_toBytes]
        apply BitVec.eq_of_toNat_eq
        rw [BitVec.toNat_ofNat]
        have fits := (SWAP .big (BitVec.ofNat 32 (fromBytes bytes))).isLt
        omega
      rw [loaded, SWAP_SWAP]

theorem correctWords_eq (order : ByteOrder) {block : Bytes} (whole : block.length = 64) {k : Nat}
    (inside : k < 16) : correctWords order block k = littleWords block k := by
  apply SWAP_load
  rw [List.length_take, List.length_drop]
  omega

/-- The rounds read no words but the 16 of the block. -/
theorem foldl_step_congr {words other : Nat → Word} (same : ∀ k < 16, words k = other k)
    (r : Registers) :
    (List.range 64).foldl (step words) r = (List.range 64).foldl (step other) r := by
  have few : ∀ i < 64, stepWord i < 16 := by decide
  apply List.foldl_ext
  intro r i member
  unfold step
  rw [same _ (few i (List.mem_range.mp member))]

/-- The unrolled rounds, with their optimized functions and swapped words, compress a block as the
RFC does. -/
theorem compress_eq (order : ByteOrder) (save : Registers) {block : Bytes}
    (whole : block.length = 64) : compress order save block = plainCompress save block := by
  have rounds := view_ops (correctWords order block) save ops.length (le_refl _)
  rw [List.take_length] at rounds
  have swapped := foldl_step_congr (fun k inside => correctWords_eq order whole inside) save
  rw [ops_length] at rounds
  unfold compress plainCompress
  rw [← swapped, ← rounds]
  rfl

end Md5

end Suspend
