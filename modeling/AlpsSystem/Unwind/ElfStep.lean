import AlpsSystem.Lib.Fallback
import AlpsSystem.Unwind.ArmExidx

/-!
# Trying the sources of unwind information

`ElfInterface::Step` tries `.eh_frame` and then `.debug_frame`, `ElfInterfaceArm::Step` after them
the exception tables.  Each source works on the registers in place, and the next one gets what it
leaves.

* `ElfInterface.sources`, `ElfInterface.outlooks` — the sources, and what can be told of each from
  the frame before the step.

A source can fail after it has changed registers, and then the next one starts from a frame that is
none.  `handsOn_registers_iff` says when the registers are handed on as they were.
-/

namespace Unwind

open Fallback

/-! ## The interfaces -/

variable {w : Nat}

structure ElfInterface (w : Nat) where
  loadBias : BitVec 64
  ehFrame : Option (DwarfSection w)
  debugFrame : Option (DwarfSection w)

/-- `section != nullptr && section->Step(pc, regs, process_memory)`. -/
def tryFrame (frame : Option (DwarfSection w)) (memory : Memory w) (pc : BitVec 64) :
    Source (Regs w) := fun regs =>
  match frame with
  | none => (false, regs)
  | some section_ =>
    match section_.step memory pc regs with
    | (.ok result, regs') => (result, regs')
    | (.error _, regs') => (false, regs')

def ElfInterface.step (elf : ElfInterface w) (memory : Memory w) (pc : BitVec 64) :
    Source (Regs w) := fun regs =>
  if pc < elf.loadBias then (false, regs)
  else
    let pc := pc - elf.loadBias
    match tryFrame elf.ehFrame memory pc regs with
    | (true, regs') => (true, regs')
    | (false, regs') => tryFrame elf.debugFrame memory pc regs'

/-- `findEntry` looks up the exception table entry for a pc, `extractEntryData` its unwind
instructions; neither sees the registers. -/
structure ElfInterfaceArm extends ElfInterface 32 where
  findEntry : BitVec 64 → Option (BitVec 32)
  extractEntryData : BitVec 32 → Except ArmStatus (List (BitVec 8))

/-- The unwind instructions for a pc. -/
def ElfInterfaceArm.entryData (arm : ElfInterfaceArm) (pc : BitVec 64) :
    Option (List (BitVec 8)) :=
  match arm.findEntry pc with
  | none => none
  | some offset =>
    match arm.extractEntryData offset with
    | .error _ => none
    | .ok data => some data

def ElfInterfaceArm.stepExidx (arm : ElfInterfaceArm) (memory : Memory 32) (pc : BitVec 64) :
    Source (Regs 32) := fun regs =>
  match arm.entryData pc with
  | none => (false, regs)
  | some data =>
    match armEval memory data regs with
    | (.FINISH, s) =>
      let pc := if s.pcSet then s.regs.regs ARM_REG_PC else s.regs.regs ARM_REG_LR
      let regs' := { s.regs with pc := pc, sp := s.cfa }
      (true, (if s.pcSet then regs' else regs'.set ARM_REG_PC pc).set ARM_REG_SP s.cfa)
    | (_, s) => (false, s.regs)

def ElfInterfaceArm.step (arm : ElfInterfaceArm) (memory : Memory 32) (pc : BitVec 64) :
    Source (Regs 32) := fun regs =>
  match arm.toElfInterface.step memory pc regs with
  | (true, regs') => (true, regs')
  | (false, regs') => arm.stepExidx memory pc regs'

/-! ## Their sources -/

/-- The sources that `ElfInterface::Step` tries. -/
def ElfInterface.sources (elf : ElfInterface w) (memory : Memory w) (pc : BitVec 64) :
    List (Source (Regs w)) :=
  if pc < elf.loadBias then []
  else
    [tryFrame elf.ehFrame memory (pc - elf.loadBias),
      tryFrame elf.debugFrame memory (pc - elf.loadBias)]

def ElfInterfaceArm.sources (arm : ElfInterfaceArm) (memory : Memory 32) (pc : BitVec 64) :
    List (Source (Regs 32)) :=
  arm.toElfInterface.sources memory pc ++ [arm.stepExidx memory pc]

/-- What can be told of a section, beforehand. -/
def frameOutlook (frame : Option (DwarfSection w)) (memory : Memory w) (pc : BitVec 64) :
    Outlook (Regs w) where
  succeeds regs :=
    match frame with
    | none => false
    | some section_ => section_.succeeds memory pc regs
  quiet regs :=
    match frame with
    | none => true
    | some section_ => section_.quiet memory pc regs

/-- The values that the unwind instructions for a pc pop. -/
def ElfInterfaceArm.popped (arm : ElfInterfaceArm) (memory : Memory 32) (pc : BitVec 64)
    (regs : Regs 32) : Bool × Popped :=
  match arm.entryData pc with
  | none => (false, [])
  | some data => poppedLoop memory regs (data.length + 1) data regs.sp []

def ElfInterfaceArm.exidxOutlook (arm : ElfInterfaceArm) (memory : Memory 32) (pc : BitVec 64) :
    Outlook (Regs 32) where
  succeeds regs := (arm.popped memory pc regs).1
  quiet regs := restored regs (arm.popped memory pc regs).2

def ElfInterface.outlooks (elf : ElfInterface w) (memory : Memory w) (pc : BitVec 64) :
    List (Outlook (Regs w)) :=
  if pc < elf.loadBias then []
  else
    [frameOutlook elf.ehFrame memory (pc - elf.loadBias),
      frameOutlook elf.debugFrame memory (pc - elf.loadBias)]

def ElfInterfaceArm.outlooks (arm : ElfInterfaceArm) (memory : Memory 32) (pc : BitVec 64) :
    List (Outlook (Regs 32)) :=
  arm.toElfInterface.outlooks memory pc ++ [arm.exidxOutlook memory pc]

lemma frameOutlook_describes (frame : Option (DwarfSection w)) (memory : Memory w)
    (pc : BitVec 64) : (frameOutlook frame memory pc).Describes (tryFrame frame memory pc) := by
  cases frame with
  | none => exact ⟨fun _ => rfl, fun _ _ => by simp [tryFrame, frameOutlook]⟩
  | some section_ =>
    have hsnd : ∀ regs, (tryFrame (some section_) memory pc regs).2 =
        (section_.step memory pc regs).2 := by
      intro regs
      simp only [tryFrame]
      rcases section_.step memory pc regs with ⟨_ | _, regs'⟩ <;> rfl
    have hfst : ∀ regs, (tryFrame (some section_) memory pc regs).1 ↔
        (section_.step memory pc regs).1 = .ok true := by
      intro regs
      simp only [tryFrame]
      rcases section_.step memory pc regs with ⟨_ | _, regs'⟩ <;> simp
    constructor
    · intro regs
      rw [Bool.eq_iff_iff, hfst, step_eq_true]
      rfl
    · intro regs hfails
      rw [hsnd]
      exact step_regs_iff hfails

open ElfInterfaceArm

lemma exidxOutlook_describes (arm : ElfInterfaceArm) (memory : Memory 32) (pc : BitVec 64) :
    (arm.exidxOutlook memory pc).Describes (arm.stepExidx memory pc) := by
  unfold exidxOutlook stepExidx popped
  cases arm.entryData pc with
  | none => exact ⟨fun _ => rfl, fun regs _ => by simp [restored]⟩
  | some data =>
    have hspec := fun regs : Regs 32 => Popping.evalLoop_spec memory (data.length + 1) data
      ⟨regs, regs.sp, false⟩ (Popping.initial regs)
    constructor
    · intro regs
      rw [Bool.eq_iff_iff, ← (hspec regs).1]
      simp only [armEval]
      rcases evalLoop memory (data.length + 1) data ⟨regs, regs.sp, false⟩ with ⟨status, s⟩
      cases status <;> simp
    · intro regs hfails
      have hfinish : ¬ (evalLoop memory (data.length + 1) data ⟨regs, regs.sp, false⟩).1 =
          .FINISH := by
        rw [(hspec regs).1]
        simpa using hfails
      refine Iff.trans ?_ (restored_iff (hspec regs).2)
      simp [armEval]

lemma ElfInterface.outlooks_describe (elf : ElfInterface w) (memory : Memory w)
    (pc : BitVec 64) : List.Forall₂ (fun o source => Outlook.Describes o source)
      (elf.outlooks memory pc) (elf.sources memory pc) := by
  unfold outlooks sources
  split
  · exact .nil
  · exact .cons (frameOutlook_describes ..) (.cons (frameOutlook_describes ..) .nil)

lemma ElfInterfaceArm.outlooks_describe (arm : ElfInterfaceArm) (memory : Memory 32)
    (pc : BitVec 64) : List.Forall₂ (fun o source => Outlook.Describes o source)
      (arm.outlooks memory pc) (arm.sources memory pc) :=
  List.rel_append (arm.toElfInterface.outlooks_describe memory pc)
    (.cons (exidxOutlook_describes arm memory pc) .nil)

/-- The interface tries its sources in turn. -/
lemma ElfInterface.step_eq_tryAll (elf : ElfInterface w) (memory : Memory w) (pc : BitVec 64) :
    elf.step memory pc = tryAll (elf.sources memory pc) := by
  funext regs
  unfold step sources
  split
  · rfl
  · rw [tryAll, tryAll_singleton]
    dsimp only
    rcases tryFrame elf.ehFrame memory (pc - elf.loadBias) regs with ⟨_ | _, regs'⟩ <;> rfl

lemma ElfInterfaceArm.step_eq_tryAll (arm : ElfInterfaceArm) (memory : Memory 32)
    (pc : BitVec 64) : arm.step memory pc = tryAll (arm.sources memory pc) := by
  funext regs
  unfold step sources
  rw [tryAll_append, tryAll_singleton, ElfInterface.step_eq_tryAll]
  rcases tryAll (arm.toElfInterface.sources memory pc) regs with ⟨_ | _, regs'⟩ <;> rfl

/-- **When a source that fails does not disturb the frame.**  For every pc, interface, memory and
frame: each source that fails hands on the registers as they were, and the step comes to the first
source that succeeds on the frame, or to no change, if and only if each source up to the first that
succeeds either succeeds or leaves the registers that it writes with the values they have. -/
theorem handsOn_registers_iff (pc : BitVec 64) :
    (∀ (w : Nat) (elf : ElfInterface w) (memory : Memory w) (regs : Regs w),
      (HandsOn (elf.sources memory pc) regs ∧
        elf.step memory pc regs = firstSuccess (elf.sources memory pc) regs) ↔
      quietUntilSuccess (elf.outlooks memory pc) regs = true) ∧
    ∀ (arm : ElfInterfaceArm) (memory : Memory 32) (regs : Regs 32),
      (HandsOn (arm.sources memory pc) regs ∧
        arm.step memory pc regs = firstSuccess (arm.sources memory pc) regs) ↔
      quietUntilSuccess (arm.outlooks memory pc) regs = true := by
  constructor
  · intro w elf memory regs
    rw [← handsOn_iff (elf.outlooks_describe memory pc) regs, elf.step_eq_tryAll]
    exact ⟨And.left, fun h => ⟨h, h.tryAll_eq⟩⟩
  · intro arm memory regs
    rw [← handsOn_iff (arm.outlooks_describe memory pc) regs, arm.step_eq_tryAll]
    exact ⟨And.left, fun h => ⟨h, h.tryAll_eq⟩⟩

/-! ## A frame that is disturbed -/

/-- Rules that give register 4 the canonical frame address and load register 5 from there. -/
def sampleFrame : DwarfSection 32 where
  locate _ := .ok (⟨3, 14⟩, ⟨[(4, { type := .VAL_OFFSET }), (5, { type := .OFFSET }),
    (cfaReg, { type := .REGISTER, value0 := 13, value1 := 8 })], by decide⟩)
  expression _ _ _ _ := .error .ILLEGAL_VALUE

def sampleRegs : Regs 32 where
  total := 16
  spReg := 13
  pc := 0x1000
  sp := 0x8000
  regs _ := 0

/-- No address can be read. -/
def unreadable : Memory 32 := fun _ old => .error old

/-- The step fails, but register 4 has been written. -/
theorem failed_step_writes_register :
    let elf : ElfInterface 32 := ⟨0, some sampleFrame, none⟩
    (elf.step unreadable 0x1000 sampleRegs).1 = false ∧
      (elf.step unreadable 0x1000 sampleRegs).2.regs 4 = 0x8008 ∧
      ¬ (HandsOn (elf.sources unreadable 0x1000) sampleRegs ∧
        elf.step unreadable 0x1000 sampleRegs =
          firstSuccess (elf.sources unreadable 0x1000) sampleRegs) := by
  refine ⟨by decide, by decide, ?_⟩
  rintro ⟨hhands, -⟩
  obtain ⟨hregs, -⟩ := hhands rfl
  have : (0x8008 : BitVec 32) = 0 := congrArg (fun r => Regs.regs r 4) hregs
  revert this
  decide

end Unwind
