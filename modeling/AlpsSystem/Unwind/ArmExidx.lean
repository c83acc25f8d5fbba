import AlpsSystem.Unwind.DwarfSection

/-!
# Unwinding with ARM exception tables

The unwind instructions of an ARM exception table entry pop registers from the stack of a frame
(`ArmExidx`).  They are executed while they are decoded, on the registers in place.

* `exec`, `evalLoop` — the execution.

`evalLoop_spec`: the registers after the execution are those before it, with the values popped.
-/

namespace Unwind

open List

inductive ArmStatus where
  | NONE | NO_UNWIND | FINISH | RESERVED | SPARE | TRUNCATED | READ_FAILED | MALFORMED
  | INVALID_ALIGNMENT | INVALID_PERSONALITY
  deriving DecidableEq, Repr

/-- What an instruction does: add to the virtual stack pointer, set it from a register, or pop
registers. -/
inductive ArmInstr where
  | addVsp (n : BitVec 32)
  | setVsp (reg : Nat)
  | pop (regs : List Nat)
  deriving DecidableEq, Repr

/-- An instruction and the data after it, or the status with which the decoding ends. -/
inductive Fetched where
  | instr (i : ArmInstr) (rest : List (BitVec 8))
  | stop (status : ArmStatus)
  deriving DecidableEq, Repr

def ARM_REG_SP : Nat := 13
def ARM_REG_LR : Nat := 14
def ARM_REG_PC : Nat := 15

/-! ## Decoding -/

/-- The instruction after another byte of the data, if there is one (`GetByte`). -/
def withByte (data : List (BitVec 8)) (k : BitVec 8 → List (BitVec 8) → Fetched) : Fetched :=
  match data with
  | [] => .stop .TRUNCATED
  | byte :: rest => k byte rest

/-- An addition to the virtual stack pointer for registers that are not recorded. -/
def skipRegs (byte mask : BitVec 8) (extra : Nat) : ArmInstr :=
  .addVsp (BitVec.ofNat 32 ((byte &&& mask).toNat * 8 + extra))

/-- 1000iiii iiiiiiii: pop up to 12 integer registers. -/
def decodePrefix_10_00 (byte : BitVec 8) (data : List (BitVec 8)) : Fetched :=
  withByte data fun next rest =>
    let registers : BitVec 16 := ((byte &&& 0xf).setWidth 16 <<< 8) ||| next.setWidth 16
    if registers = 0 then .stop .NO_UNWIND
    else .instr (.pop ((List.range' 4 12).filter fun reg => (registers <<< 4).getLsbD reg)) rest

/-- 1001nnnn: set vsp to a register. -/
def decodePrefix_10_01 (byte : BitVec 8) (data : List (BitVec 8)) : Fetched :=
  let bits := (byte &&& 0xf).toNat
  if bits = 13 ∨ bits = 15 then .stop .RESERVED else .instr (.setVsp bits) data

/-- 1010xnnn: pop r4 to r[4+nnn], and r14. -/
def decodePrefix_10_10 (byte : BitVec 8) (data : List (BitVec 8)) : Fetched :=
  .instr (.pop (List.range' 4 ((byte &&& 7).toNat + 1) ++ if byte &&& 8 ≠ 0 then [14] else [])) data

/-- 10110001 0000iiii: pop integer registers r0 to r3. -/
def decodePrefix_10_11_0001 (data : List (BitVec 8)) : Fetched :=
  withByte data fun byte rest =>
    if byte = 0 then .stop .SPARE
    else if byte >>> 4 ≠ 0 then .stop .SPARE
    else .instr (.pop ((List.range 4).filter fun reg => byte.getLsbD reg)) rest

/-- The loop over the bytes of a uleb128 number. -/
def uleb128 : List (BitVec 8) → (shift : Nat) → (result : BitVec 32) →
    Option (BitVec 32 × List (BitVec 8))
  | [], _, _ => none
  | byte :: rest, shift, result =>
    let result := result ||| ((byte &&& 0x7f).setWidth 32 <<< shift)
    if byte &&& 0x80 ≠ 0 then uleb128 rest (shift + 7) result else some (result, rest)

/-- 10110010 uleb128: add a large number to vsp. -/
def decodePrefix_10_11_0010 (data : List (BitVec 8)) : Fetched :=
  match uleb128 data 0 0 with
  | none => .stop .TRUNCATED
  | some (result, rest) => .instr (.addVsp (0x204 + result <<< 2)) rest

/-- 10110011 sssscccc: pop floating point registers. -/
def decodePrefix_10_11_0011 (data : List (BitVec 8)) : Fetched :=
  withByte data fun byte rest => .instr (skipRegs byte 0xf 12) rest

def decodePrefix_10 (byte : BitVec 8) (data : List (BitVec 8)) : Fetched :=
  match ((byte >>> 4) &&& 3).toNat with
  | 0 => decodePrefix_10_00 byte data
  | 1 => decodePrefix_10_01 byte data
  | 2 => decodePrefix_10_10 byte data
  | _ =>
    match (byte &&& 0xf).toNat with
    | 0 => .stop .FINISH
    | 1 => decodePrefix_10_11_0001 data
    | 2 => decodePrefix_10_11_0010 data
    | 3 => decodePrefix_10_11_0011 data
    | _ => if byte &&& 8 ≠ 0 then .instr (skipRegs byte 7 12) data else .stop .SPARE

/-- 11000nnn: pop Intel Wireless MMX registers. -/
def decodePrefix_11_000 (byte : BitVec 8) (data : List (BitVec 8)) : Fetched :=
  match (byte &&& 7).toNat with
  | 6 => withByte data fun next rest => .instr (skipRegs next 0xf 8) rest
  | 7 => withByte data fun next rest =>
    if next = 0 then .stop .SPARE
    else if next >>> 4 = 0 then
      .instr (.addVsp (BitVec.ofNat 32
        (((List.range 8).filter fun i => next.getLsbD i).length * 4))) rest
    else .stop .SPARE
  | _ => .instr (skipRegs byte 7 8) data

/-- 11001nnn: pop floating point registers. -/
def decodePrefix_11_001 (byte : BitVec 8) (data : List (BitVec 8)) : Fetched :=
  match (byte &&& 7).toNat with
  | 0 | 1 => withByte data fun next rest => .instr (skipRegs next 0xf 8) rest
  | _ => .stop .SPARE

def decodePrefix_11 (byte : BitVec 8) (data : List (BitVec 8)) : Fetched :=
  match ((byte >>> 3) &&& 7).toNat with
  | 0 => decodePrefix_11_000 byte data
  | 1 => decodePrefix_11_001 byte data
  | 2 => .instr (skipRegs byte 7 8) data
  | _ => .stop .SPARE

/-- The decoding in `Decode`. -/
def fetch (data : List (BitVec 8)) : Fetched :=
  withByte data fun byte rest =>
    match (byte >>> 6).toNat with
    | 0 => .instr (.addVsp (((byte &&& 0x3f).setWidth 32 <<< 2) + 4)) rest
    | 1 => .instr (.addVsp (-(((byte &&& 0x3f).setWidth 32 <<< 2) + 4))) rest
    | 2 => decodePrefix_10 byte rest
    | _ => decodePrefix_11 byte rest

/-! ## Execution -/

/-- The fields of `ArmExidx` that the instructions work on. -/
structure ArmState where
  regs : Regs 32
  cfa : BitVec 32
  pcSet : Bool

variable (memory : Memory 32)

/-- Pop registers one after the other; a read that fails ends it. -/
def popAll : List Nat → ArmState → Except ArmState ArmState
  | [], s => .ok s
  | reg :: rest, s =>
    match memory (s.cfa.setWidth 64) (s.regs.regs reg) with
    | .ok v => popAll rest { s with regs := s.regs.set reg v, cfa := s.cfa + 4 }
    | .error v => .error { s with regs := s.regs.set reg v }

def exec (s : ArmState) : ArmInstr → Except ArmState ArmState
  | .addVsp n => .ok { s with cfa := s.cfa + n }
  | .setVsp reg => .ok { s with cfa := s.regs.regs reg }
  | .pop regs =>
    match popAll memory regs s with
    | .error s' => .error s'
    | .ok s' => .ok { s' with
        cfa := if ARM_REG_SP ∈ regs then s'.regs.regs ARM_REG_SP else s'.cfa
        pcSet := s'.pcSet || decide (ARM_REG_PC ∈ regs) }

/-- The loop in `Eval`; an instruction takes at least one byte of the data. -/
def evalLoop : (fuel : Nat) → List (BitVec 8) → ArmState → ArmStatus × ArmState
  | 0, _, s => (.TRUNCATED, s)
  | fuel + 1, data, s =>
    match fetch data with
    | .stop status => (status, s)
    | .instr i rest =>
      match exec memory s i with
      | .error s' => (.READ_FAILED, s')
      | .ok s' => evalLoop fuel rest s'

/-- `ArmExidx::Eval`. -/
def armEval (data : List (BitVec 8)) (regs : Regs 32) : ArmStatus × ArmState :=
  evalLoop memory (data.length + 1) data ⟨regs, regs.sp, false⟩

/-! ## The values popped -/

/-- The registers popped with their values, the last one first. -/
abbrev Popped : Type := List (Nat × BitVec 32)

/-- A register after some have been popped. -/
def valueOf (regs : Regs 32) (popped : Popped) (reg : Nat) : BitVec 32 :=
  (popped.lookup reg).getD (regs.regs reg)

/-- The values that a list of registers pops, and where the stack pointer is then unless a read
fails. -/
def poppedAll (regs : Regs 32) : List Nat → BitVec 32 → Popped → Option (BitVec 32) × Popped
  | [], cfa, popped => (some cfa, popped)
  | reg :: rest, cfa, popped =>
    match memory (cfa.setWidth 64) (valueOf regs popped reg) with
    | .ok v => poppedAll regs rest (cfa + 4) ((reg, v) :: popped)
    | .error v => (none, (reg, v) :: popped)

/-- The values that unwind instructions pop, and whether they come to their end. -/
def poppedLoop (regs : Regs 32) : (fuel : Nat) → List (BitVec 8) → BitVec 32 → Popped →
    Bool × Popped
  | 0, _, _, popped => (false, popped)
  | fuel + 1, data, cfa, popped =>
    match fetch data with
    | .stop status => (status = .FINISH, popped)
    | .instr (.addVsp n) rest => poppedLoop regs fuel rest (cfa + n) popped
    | .instr (.setVsp reg) rest => poppedLoop regs fuel rest (valueOf regs popped reg) popped
    | .instr (.pop toPop) rest =>
      match poppedAll memory regs toPop cfa popped with
      | (none, popped) => (false, popped)
      | (some cfa, popped) =>
        poppedLoop regs fuel rest
          (if ARM_REG_SP ∈ toPop then valueOf regs popped ARM_REG_SP else cfa) popped

/-- The registers are those of a frame after some have been popped. -/
def Popping (regs : Regs 32) (popped : Popped) (cur : Regs 32) : Prop :=
  cur = { regs with regs := valueOf regs popped }

namespace Popping

variable {regs cur : Regs 32} {popped : Popped}

lemma initial (regs : Regs 32) : Popping regs [] regs := rfl

lemma value (h : Popping regs popped cur) (reg : Nat) : cur.regs reg = valueOf regs popped reg := by
  rw [h]

lemma cons (h : Popping regs popped cur) (reg : Nat) (v : BitVec 32) :
    Popping regs ((reg, v) :: popped) (cur.set reg v) := by
  rw [h, Regs.set]
  congr 1
  funext r
  by_cases hr : r = reg
  · simp [valueOf, hr]
  · simp [valueOf, hr, lookup_cons, beq_eq_false_iff_ne.mpr hr]

/-- Popping registers is the same on the record. -/
lemma popAll_spec (memory : Memory 32) (toPop : List Nat) (s : ArmState)
    (h : Popping regs popped s.regs) :
    (∃ s' popped', popAll memory toPop s = .ok s' ∧
      poppedAll memory regs toPop s.cfa popped = (some s'.cfa, popped') ∧
      Popping regs popped' s'.regs) ∨
    (∃ s' popped', popAll memory toPop s = .error s' ∧
      poppedAll memory regs toPop s.cfa popped = (none, popped') ∧
      Popping regs popped' s'.regs) := by
  induction toPop generalizing s popped with
  | nil => exact .inl ⟨s, popped, rfl, rfl, h⟩
  | cons reg rest ih =>
    unfold popAll poppedAll
    rw [← h.value reg]
    cases memory (s.cfa.setWidth 64) (s.regs.regs reg) with
    | ok v => exact ih { s with regs := s.regs.set reg v, cfa := s.cfa + 4 } (h.cons reg v)
    | error v => exact .inr ⟨_, _, rfl, rfl, h.cons reg v⟩

/-- **The execution is the same on the record.** -/
theorem evalLoop_spec (fuel : Nat) (data : List (BitVec 8)) (s : ArmState)
    (h : Popping regs popped s.regs) :
    ((evalLoop memory fuel data s).1 = .FINISH ↔
      (poppedLoop memory regs fuel data s.cfa popped).1) ∧
    Popping regs (poppedLoop memory regs fuel data s.cfa popped).2
      (evalLoop memory fuel data s).2.regs := by
  induction fuel generalizing data s popped with
  | zero => exact ⟨by simp [evalLoop, poppedLoop], h⟩
  | succ fuel ih =>
    unfold evalLoop poppedLoop
    cases fetch data with
    | stop status => exact ⟨by simp, h⟩
    | instr i rest =>
      cases i with
      | addVsp n => exact ih rest { s with cfa := s.cfa + n } h
      | setVsp reg =>
        dsimp only
        rw [← h.value reg]
        exact ih rest { s with cfa := s.regs.regs reg } h
      | pop toPop =>
        rcases h.popAll_spec memory toPop s with
          ⟨s', popped', hpop, hpopped, h'⟩ | ⟨s', popped', hpop, hpopped, h'⟩
        · simp only [exec, hpop, hpopped]
          rw [← h'.value]
          exact ih rest { s' with cfa := _, pcSet := _ } h'
        · simp only [exec, hpop, hpopped]
          exact ⟨by simp, h'⟩

end Popping

/-- The registers popped have the values that they had. -/
def restored (regs : Regs 32) (popped : Popped) : Bool :=
  popped.all fun e => valueOf regs popped e.1 = regs.regs e.1

lemma valueOf_of_forall_ne {regs : Regs 32} {popped : Popped} {reg : Nat}
    (h : ∀ e ∈ popped, e.1 ≠ reg) : valueOf regs popped reg = regs.regs reg := by
  have hnone : popped.lookup reg = none := by
    induction popped with
    | nil => rfl
    | cons e rest ih =>
      have hne : (reg == e.1) = false := by
        simpa using (h e mem_cons_self).symm
      rw [lookup_cons, hne]
      exact ih fun e' he' => h e' (.tail _ he')
  simp [valueOf, hnone]

lemma restored_iff {regs cur : Regs 32} {popped : Popped} (h : Popping regs popped cur) :
    cur = regs ↔ restored regs popped := by
  constructor
  · intro heq
    have hvalue : ∀ r, valueOf regs popped r = regs.regs r := fun r => by rw [← h.value, heq]
    simp [restored, hvalue]
  · intro hall
    have hvalue : valueOf regs popped = regs.regs := by
      funext r
      by_cases hr : ∃ e ∈ popped, e.1 = r
      · obtain ⟨e, he, rfl⟩ := hr
        simpa using all_eq_true.mp hall e he
      · exact valueOf_of_forall_ne fun e he heq => hr ⟨e, he, heq⟩
    rw [h, hvalue]

end Unwind
