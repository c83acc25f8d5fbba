import Mathlib

/-!
# Unwinding with DWARF location rules

`DwarfSectionImpl::Eval` computes the registers of the calling frame from the rules that call frame
information gives for a pc.  It works on the registers in place, one rule after the other.

* `Regs`, `Memory`, `DwarfLocation`, `LocRegs` — the data.

Registers are words of `w` bits, for the two address types of the source.  The lookup of the rules
and the stack machine for expressions see neither the registers nor change them; they are fields of
the section.

The effect of a rule can be told from the registers before the step (`ruleEffect_congr`): a rule
that names another register names one without a rule.  So it can be told beforehand whether the
evaluation succeeds (`step_eq_true`) and, if not, whether it leaves the registers as they were
(`step_regs_iff`).
-/

namespace Unwind

open List

/-! ## Data -/

inductive DwarfError where
  | NONE | MEMORY_INVALID | ILLEGAL_VALUE | ILLEGAL_STATE | STACK_INDEX_NOT_VALID
  | NOT_IMPLEMENTED | TOO_MANY_ITERATIONS | CFA_NOT_DEFINED | UNSUPPORTED_VERSION
  deriving DecidableEq, Repr

inductive DwarfLocationEnum where
  | INVALID | UNDEFINED | OFFSET | VAL_OFFSET | REGISTER | EXPRESSION | VAL_EXPRESSION
  deriving DecidableEq, Repr

structure DwarfLocation where
  type : DwarfLocationEnum
  value0 : BitVec 64 := 0
  value1 : BitVec 64 := 0
  deriving DecidableEq, Repr

def cfaReg : BitVec 16 := 0xffff

/-- `dwarf_loc_regs_t`, in the order in which the map is traversed. -/
structure LocRegs where
  entries : List (BitVec 16 × DwarfLocation)
  nodup : (entries.map Prod.fst).Nodup

def LocRegs.find (l : LocRegs) (reg : BitVec 16) : Option DwarfLocation := l.entries.lookup reg

/-- What the evaluation uses of a `DwarfCie`. -/
structure DwarfCie where
  version : BitVec 8
  returnAddressRegister : BitVec 64

/-- `RegsImpl`: `total` registers of `w` bits, of which one is the stack pointer. -/
structure Regs (w : Nat) where
  total : Nat
  spReg : Nat
  pc : BitVec w
  sp : BitVec w
  regs : Nat → BitVec w

def Regs.set {w : Nat} (r : Regs w) (reg : Nat) (v : BitVec w) : Regs w :=
  { r with regs := Function.update r.regs reg v }

/-- `Memory::Read` of one word, given what is in its destination: the word, or what a read that
fails leaves there. -/
abbrev Memory (w : Nat) : Type := BitVec 64 → BitVec w → Except (BitVec w) (BitVec w)

/-- A section of call frame information: `locate` is the lookup of the entry for a pc and of its
rules, `expression` the evaluation of the bytes of an expression, with the stack and whether it
names a register. -/
structure DwarfSection (w : Nat) where
  locate : BitVec 64 → Except DwarfError (DwarfCie × LocRegs)
  expression : BitVec 64 → BitVec 64 → BitVec 8 → Memory w →
    Except DwarfError (List (BitVec w) × Bool)

/-! ## Evaluation -/

variable {w : Nat} (section_ : DwarfSection w) (cie : DwarfCie) (memory : Memory w)
  (locRegs : LocRegs)

def evalExpression (loc : DwarfLocation) : Except DwarfError (BitVec w) :=
  match section_.expression loc.value1 (loc.value1 + loc.value0) cie.version memory with
  | .error e => .error e
  | .ok ([], _) => .error .ILLEGAL_STATE
  | .ok (top :: _, isRegister) => if isRegister then .error .NOT_IMPLEMENTED else .ok top

/-- The canonical frame address. -/
def evalCfa (regs : Regs w) : Except DwarfError (BitVec w) :=
  match locRegs.find cfaReg with
  | none => .error .CFA_NOT_DEFINED
  | some loc =>
    match loc.type with
    | .REGISTER =>
      if loc.value0.toNat ≥ regs.total then .error .ILLEGAL_VALUE
      else if regs.spReg = loc.value0.toNat ∧ locRegs.find (BitVec.ofNat 16 regs.spReg) = none then
        .ok (regs.sp + loc.value1.setWidth w)
      else .ok (regs.regs loc.value0.toNat + loc.value1.setWidth w)
    | .EXPRESSION =>
      match evalExpression section_ cie memory loc with
      | .error e => .error e
      | .ok value =>
        match memory (value.setWidth 64) 0 with
        | .ok cfa => .ok cfa
        | .error _ => .error .MEMORY_INVALID
    | .VAL_EXPRESSION => evalExpression section_ cie memory loc
    | _ => .error .ILLEGAL_VALUE

/-- What a rule does to its register: nothing, a new value, or a failure that may leave something
there. -/
inductive Effect (w : Nat) where
  | skip
  | store (v : BitVec w)
  | fail (left : Option (BitVec w)) (e : DwarfError)

/-- A read into a register. -/
def readEffect (addr : BitVec 64) (old : BitVec w) : Effect w :=
  match memory addr old with
  | .ok v => .store v
  | .error v => .fail (some v) .MEMORY_INVALID

/-- A rule that refers to another register, which must not have a rule of its own. -/
def registerEffect (regs : Regs w) (loc : DwarfLocation) : Effect w :=
  let curReg := loc.value0.setWidth 16
  if curReg.toNat ≥ regs.total then .fail none .ILLEGAL_VALUE
  else
    match locRegs.find curReg with
    | some _ => .fail none .ILLEGAL_STATE
    | none => .store (regs.regs curReg.toNat + loc.value1.setWidth w)

/-- One turn of the loop in `Eval`. -/
def ruleEffect (cfa : BitVec w) (regs : Regs w) (reg : BitVec 16) (loc : DwarfLocation) :
    Effect w :=
  if reg = cfaReg then .skip
  else if reg.toNat ≥ regs.total then .skip
  else
    match loc.type with
    | .OFFSET => readEffect memory (cfa.setWidth 64 + loc.value0) (regs.regs reg.toNat)
    | .VAL_OFFSET => .store ((cfa.setWidth 64 + loc.value0).setWidth w)
    | .REGISTER => registerEffect locRegs regs loc
    | .EXPRESSION =>
      match evalExpression section_ cie memory loc with
      | .error e => .fail none e
      | .ok value => readEffect memory (value.setWidth 64) (regs.regs reg.toNat)
    | .VAL_EXPRESSION =>
      match evalExpression section_ cie memory loc with
      | .error e => .fail none e
      | .ok value => .store value
    | .UNDEFINED => .skip
    | .INVALID => .skip

/-- The rule that makes the return address undefined. -/
def undefinesReturn (total : Nat) (reg : BitVec 16) (loc : DwarfLocation) : Bool :=
  reg ≠ cfaReg && reg.toNat < total && loc.type = .UNDEFINED &&
    reg.toNat = cie.returnAddressRegister.toNat

/-- The loop in `Eval`, with `return_address_undefined`. -/
def evalRules (cfa : BitVec w) : List (BitVec 16 × DwarfLocation) → Bool → Regs w →
    Except DwarfError Bool × Regs w
  | [], undefined, regs => (.ok undefined, regs)
  | (reg, loc) :: rest, undefined, regs =>
    match ruleEffect section_ cie memory locRegs cfa regs reg loc with
    | .skip => evalRules cfa rest (undefined || undefinesReturn cie regs.total reg loc) regs
    | .store v => evalRules cfa rest undefined (regs.set reg.toNat v)
    | .fail none e => (.error e, regs)
    | .fail (some left) e => (.error e, regs.set reg.toNat left)

/-- `DwarfSectionImpl::Eval`: what it returns, or the error that it stores before it returns false,
and the registers that it leaves. -/
def eval (regs : Regs w) : Except DwarfError Bool × Regs w :=
  if cie.returnAddressRegister.toNat ≥ regs.total then (.error .ILLEGAL_VALUE, regs)
  else
    match evalCfa section_ cie memory locRegs regs with
    | .error e => (.error e, regs)
    | .ok cfa =>
      match evalRules section_ cie memory locRegs cfa locRegs.entries false regs with
      | (.error e, regs') => (.error e, regs')
      | (.ok undefined, regs') =>
        let pc := if undefined then 0 else regs'.regs cie.returnAddressRegister.toNat
        -- stop if the cfa and pc are the same
        (.ok (regs.sp ≠ cfa || regs.pc ≠ pc), { regs' with pc := pc, sp := cfa })

def DwarfSection.step (pc : BitVec 64) (regs : Regs w) : Except DwarfError Bool × Regs w :=
  match section_.locate pc with
  | .error e => (.error e, regs)
  | .ok (cie, locRegs) => eval section_ cie memory locRegs regs

/-! ## Telling the effect beforehand -/

/-- The failure of a rule. -/
def Effect.fails : Effect w → Bool
  | .fail .. => true
  | _ => false

/-- A rule leaves something else than `old` in its register. -/
def Effect.disturbs (old : BitVec w) : Effect w → Bool
  | .store v => v ≠ old
  | .fail (some v) _ => v ≠ old
  | _ => false

/-- The value that a register has after a rule that does not fail. -/
def Effect.result (old : BitVec w) : Effect w → BitVec w
  | .store v => v
  | _ => old

section Beforehand

variable (cfa : BitVec w) (regs : Regs w)

/-- The effect of an entry on the registers before the step. -/
def entryEffect (e : BitVec 16 × DwarfLocation) : Effect w :=
  ruleEffect section_ cie memory locRegs cfa regs e.1 e.2

/-- The entries that are evaluated: up to the first one that fails. -/
def reached : List (BitVec 16 × DwarfLocation) → List (BitVec 16 × DwarfLocation)
  | [] => []
  | e :: rest =>
    e :: if (entryEffect section_ cie memory locRegs cfa regs e).fails then [] else reached rest

/-- No entry fails. -/
def complete : Bool :=
  locRegs.entries.all fun e => !(entryEffect section_ cie memory locRegs cfa regs e).fails

/-- No entry that is evaluated changes its register. -/
def undisturbed : Bool :=
  (reached section_ cie memory locRegs cfa regs locRegs.entries).all fun e =>
    !(entryEffect section_ cie memory locRegs cfa regs e).disturbs (regs.regs e.1.toNat)

/-- The return address of the frame. -/
def returnAddress : BitVec w :=
  if locRegs.entries.any fun e => undefinesReturn cie regs.total e.1 e.2 then 0
  else
    match locRegs.entries.find? fun e => e.1.toNat = cie.returnAddressRegister.toNat with
    | some e => (entryEffect section_ cie memory locRegs cfa regs e).result (regs.regs e.1.toNat)
    | none => regs.regs cie.returnAddressRegister.toNat

end Beforehand

/-- All rules of the pc can be evaluated, and they lead to another frame. -/
def DwarfSection.succeeds (pc : BitVec 64) (regs : Regs w) : Bool :=
  match section_.locate pc with
  | .error _ => false
  | .ok (cie, locRegs) =>
    if cie.returnAddressRegister.toNat ≥ regs.total then false
    else
      match evalCfa section_ cie memory locRegs regs with
      | .error _ => false
      | .ok cfa => complete section_ cie memory locRegs cfa regs &&
          (regs.sp ≠ cfa || regs.pc ≠ returnAddress section_ cie memory locRegs cfa regs)

/-- There are no rules to evaluate, or those that are evaluated change no register. -/
def DwarfSection.quiet (pc : BitVec 64) (regs : Regs w) : Bool :=
  match section_.locate pc with
  | .error _ => true
  | .ok (cie, locRegs) =>
    if cie.returnAddressRegister.toNat ≥ regs.total then true
    else
      match evalCfa section_ cie memory locRegs regs with
      | .error _ => true
      | .ok cfa => undisturbed section_ cie memory locRegs cfa regs

open DwarfSection Effect Regs

section Rules

variable {section_ cie memory locRegs} {cfa : BitVec w} {regs r cur : Regs w}
  {rest : List (BitVec 16 × DwarfLocation)} {reg : BitVec 16} {e : BitVec 16 × DwarfLocation}

@[simp] lemma Regs.set_regs_self (r : Regs w) (reg : Nat) (v : BitVec w) :
    (r.set reg v).regs reg = v := by
  simp [set]

lemma Regs.set_regs_of_ne {reg other : Nat} (h : other ≠ reg) (v : BitVec w) :
    (r.set reg v).regs other = r.regs other := by
  simp [set, h]

@[simp] lemma Regs.set_self (r : Regs w) (reg : Nat) : r.set reg (r.regs reg) = r := by
  simp [set]

lemma Regs.update_self {pc sp : BitVec w} (hpc : r.pc = pc) (hsp : r.sp = sp) :
    { r with pc, sp } = r := by
  subst hpc hsp
  rfl

lemma find_eq_none : locRegs.find reg = none ↔ ∀ e ∈ locRegs.entries, e.1 ≠ reg := by
  unfold LocRegs.find
  induction locRegs.entries with
  | nil => simp
  | cons e rest ih =>
    obtain ⟨key, loc⟩ := e
    rw [lookup_cons]
    by_cases hkey : reg = key
    · simp [hkey]
    · simp [beq_eq_false_iff_ne.mpr hkey, ih, Ne.symm hkey]

/-- **A rule has the effect that it has on the registers before the step**, as long as its register
and those without a rule are as before. -/
theorem ruleEffect_congr (loc : DwarfLocation)
    (htotal : cur.total = regs.total) (hreg : cur.regs reg.toNat = regs.regs reg.toNat)
    (hplain : ∀ r, locRegs.find r = none → cur.regs r.toNat = regs.regs r.toNat) :
    ruleEffect section_ cie memory locRegs cfa cur reg loc =
      ruleEffect section_ cie memory locRegs cfa regs reg loc := by
  have hregister : registerEffect locRegs cur loc = registerEffect locRegs regs loc := by
    simp only [registerEffect, htotal]
    cases hfind : locRegs.find (loc.value0.setWidth 16) with
    | none => rw [hplain _ hfind]
    | some other => rfl
  simp [ruleEffect, htotal, hreg, hregister]

/-- The loop leaves the registers alone that have no entry. -/
lemma evalRules_other (undefined : Bool) (cur : Regs w) {r : Nat} (hr : ∀ e ∈ rest, e.1.toNat ≠ r) :
    (evalRules section_ cie memory locRegs cfa rest undefined cur).2.regs r = cur.regs r := by
  induction rest generalizing undefined cur with
  | nil => rfl
  | cons e rest ih =>
    have hne : r ≠ e.1.toNat := (hr e mem_cons_self).symm
    have ih := fun u c => ih u c fun e' he' => hr e' (.tail _ he')
    unfold evalRules
    split
    · exact ih _ _
    · rw [ih, set_regs_of_ne hne]
    · rfl
    · exact set_regs_of_ne hne _

/-- An entry that comes once: later entries leave its register alone. -/
lemma toNat_ne_of_nodup
    (h : ((e :: rest).map Prod.fst).Nodup) : ∀ e' ∈ rest, e'.1.toNat ≠ e.1.toNat := by
  intro e' he' heq
  have hnot := (nodup_cons.mp h).1
  exact hnot (mem_map.mpr ⟨e', he', BitVec.eq_of_toNat_eq heq⟩)

/-- During the loop: the registers with entries still to come, and those without one, are as before
the step. -/
structure Pending (locRegs : LocRegs) (regs cur : Regs w)
    (rest : List (BitVec 16 × DwarfLocation)) : Prop where
  nodup : (rest.map Prod.fst).Nodup
  mem : ∀ e ∈ rest, e ∈ locRegs.entries
  total : cur.total = regs.total
  rest : ∀ e ∈ rest, cur.regs e.1.toNat = regs.regs e.1.toNat
  plain : ∀ r, locRegs.find r = none → cur.regs r.toNat = regs.regs r.toNat

namespace Pending

variable {cur : Regs w} {e : BitVec 16 × DwarfLocation}

lemma initial (locRegs : LocRegs) (regs : Regs w) : Pending locRegs regs regs locRegs.entries :=
  ⟨locRegs.nodup, fun _ h => h, rfl, fun _ _ => rfl, fun _ _ => rfl⟩

variable (h : Pending locRegs regs cur (e :: rest))

include h

lemma tail : Pending locRegs regs cur rest :=
  ⟨(List.nodup_cons.mp h.nodup).2, fun e' he' => h.mem e' (List.mem_cons_of_mem _ he'), h.total,
    fun e' he' => h.rest e' (List.mem_cons_of_mem _ he'), h.plain⟩

lemma set (v : BitVec w) :
    Pending locRegs regs (cur.set e.1.toNat v) rest where
  nodup := h.tail.nodup
  mem := h.tail.mem
  total := h.total
  rest e' he' := by
    rw [set_regs_of_ne (toNat_ne_of_nodup h.nodup e' he')]
    exact h.tail.rest e' he'
  plain r hr := by
    have hne : r.toNat ≠ e.1.toNat := fun heq =>
      find_eq_none.mp hr e (h.mem e mem_cons_self) (BitVec.eq_of_toNat_eq heq.symm)
    rw [set_regs_of_ne hne]
    exact h.plain r hr

lemma effect :
    ruleEffect section_ cie memory locRegs cfa cur e.1 e.2 =
      entryEffect section_ cie memory locRegs cfa regs e :=
  ruleEffect_congr e.2 h.total (h.rest e List.mem_cons_self) h.plain

end Pending

variable (section_ cie memory locRegs cfa) in
/-- The loop leaves pc and sp alone. -/
theorem evalRules_frame (rest : List (BitVec 16 × DwarfLocation)) (undefined : Bool)
    (cur : Regs w) :
    (evalRules section_ cie memory locRegs cfa rest undefined cur).2.pc = cur.pc ∧
      (evalRules section_ cie memory locRegs cfa rest undefined cur).2.sp = cur.sp := by
  induction rest generalizing undefined cur with
  | nil => exact ⟨rfl, rfl⟩
  | cons e rest ih =>
    unfold evalRules
    split
    · exact ih _ _
    · next v _ => exact ih undefined (cur.set e.1.toNat v)
    · exact ⟨rfl, rfl⟩
    · exact ⟨rfl, rfl⟩

lemma entryEffect_of_undefines (h : undefinesReturn cie regs.total e.1 e.2) :
    entryEffect section_ cie memory locRegs cfa regs e = .skip := by
  simp only [undefinesReturn, Bool.and_eq_true, decide_eq_true_eq] at h
  simp [entryEffect, ruleEffect, h]

variable (section_ cie memory cfa) in
/-- If some entry fails the loop stops with an error, and otherwise it does not. -/
theorem evalRules_fst (undefined : Bool) (h : Pending locRegs regs cur rest) :
    (rest.all (fun e => !(entryEffect section_ cie memory locRegs cfa regs e).fails) = true ∧
      (evalRules section_ cie memory locRegs cfa rest undefined cur).1 = .ok (undefined ||
        rest.any fun e => undefinesReturn cie regs.total e.1 e.2)) ∨
    (rest.all (fun e => !(entryEffect section_ cie memory locRegs cfa regs e).fails) = false ∧
      ∃ err, (evalRules section_ cie memory locRegs cfa rest undefined cur).1 = .error err) := by
  induction rest generalizing undefined cur with
  | nil => exact .inl ⟨rfl, by simp [evalRules]⟩
  | cons e rest ih =>
    unfold evalRules
    rw [h.effect, all_cons, any_cons]
    cases heffect : entryEffect section_ cie memory locRegs cfa regs e with
    | skip =>
      simpa [fails, h.total, Bool.or_assoc] using
        ih (undefined || undefinesReturn cie regs.total e.1 e.2) h.tail
    | store v =>
      have hdefined : undefinesReturn cie regs.total e.1 e.2 = false := by
        by_contra hundef
        rw [entryEffect_of_undefines (by simpa using hundef)] at heffect
        cases heffect
      simpa [fails, hdefined] using ih undefined (h.set v)
    | fail left err =>
      refine .inr ⟨by simp [fails], err, ?_⟩
      cases left <;> rfl

/-- **Each entry has the effect that it has on the registers before the step**, if none fails. -/
theorem evalRules_result (undefined : Bool) (h : Pending locRegs regs cur rest)
    (hall : ∀ e ∈ rest, (entryEffect section_ cie memory locRegs cfa regs e).fails = false) :
    ∀ e ∈ rest, (evalRules section_ cie memory locRegs cfa rest undefined cur).2.regs e.1.toNat =
      (entryEffect section_ cie memory locRegs cfa regs e).result (regs.regs e.1.toNat) := by
  induction rest generalizing undefined cur with
  | nil => intro e he; cases he
  | cons e rest ih =>
    have hhead := hall e mem_cons_self
    have ih := fun u (c : Regs w) (hp : Pending locRegs regs c rest) =>
      ih u hp fun e' he' => hall e' (.tail _ he')
    have hother := toNat_ne_of_nodup h.nodup
    intro e' he'
    unfold evalRules
    rw [h.effect]
    cases heffect : entryEffect section_ cie memory locRegs cfa regs e with
    | skip =>
      rcases mem_cons.mp he' with rfl | he'
      · rw [heffect]
        exact (evalRules_other _ cur hother).trans (h.rest e' mem_cons_self)
      · exact ih _ cur h.tail e' he'
    | store v =>
      rcases mem_cons.mp he' with rfl | he'
      · rw [heffect]
        exact (evalRules_other _ _ hother).trans (set_regs_self cur _ v)
      · exact ih _ _ (h.set v) e' he'
    | fail left err => simp [heffect, fails] at hhead

/-- **When the loop leaves the registers as they were**: no entry that is evaluated changes its
register. -/
theorem evalRules_regs_iff (undefined : Bool) (hnodup : (rest.map Prod.fst).Nodup) :
    (evalRules section_ cie memory locRegs cfa rest undefined regs).2 = regs ↔
      (reached section_ cie memory locRegs cfa regs rest).all (fun e =>
        !(entryEffect section_ cie memory locRegs cfa regs e).disturbs (regs.regs e.1.toNat)) =
          true := by
  induction rest generalizing undefined with
  | nil => simp [evalRules, reached]
  | cons e rest ih =>
    have ih := fun u => ih u (nodup_cons.mp hnodup).2
    have hother := toNat_ne_of_nodup hnodup
    unfold evalRules reached
    rw [all_cons]
    rw [show ruleEffect section_ cie memory locRegs cfa regs e.1 e.2 =
      entryEffect section_ cie memory locRegs cfa regs e from rfl]
    cases heffect : entryEffect section_ cie memory locRegs cfa regs e with
    | skip => simpa [disturbs, fails] using ih _
    | store v =>
      by_cases hv : v = regs.regs e.1.toNat
      · have hquiet : (store v).disturbs (regs.regs e.1.toNat) = false := by
          simp [disturbs, hv]
        subst hv
        simpa [fails, hquiet] using ih undefined
      · -- the new value stays in the register
        refine iff_of_false (fun heq => hv ?_) (by simp [disturbs, hv])
        have hstays := congrArg (fun r => Regs.regs r e.1.toNat) heq
        rwa [evalRules_other _ _ hother, set_regs_self] at hstays
    | fail left err =>
      cases left with
      | none => simp [disturbs, fails]
      | some v =>
        by_cases hv : v = regs.regs e.1.toNat
        · simp [disturbs, fails, hv]
        · refine iff_of_false (fun heq => hv ?_) (by simp [disturbs, hv])
          have hstays := congrArg (fun r => Regs.regs r e.1.toNat) heq
          simpa using hstays

lemma fails_of_complete (h : complete section_ cie memory locRegs cfa regs) :
    ∀ e ∈ locRegs.entries, (entryEffect section_ cie memory locRegs cfa regs e).fails = false := by
  simpa [complete] using h

/-- The return address that the loop leaves. -/
lemma returnAddress_eq (hcomplete : complete section_ cie memory locRegs cfa regs) :
    (if locRegs.entries.any fun e => undefinesReturn cie regs.total e.1 e.2 then 0
      else (evalRules section_ cie memory locRegs cfa locRegs.entries false regs).2.regs
        cie.returnAddressRegister.toNat) = returnAddress section_ cie memory locRegs cfa regs := by
  unfold returnAddress
  split
  · rfl
  · split
    · next e he =>
      have hkey : e.1.toNat = cie.returnAddressRegister.toNat := by
        simpa using List.find?_some he
      rw [← hkey]
      exact evalRules_result false (.initial locRegs regs) (fails_of_complete hcomplete) e
        (mem_of_find?_eq_some he)
    · next hnone =>
      exact evalRules_other false regs fun e he => by
        simpa using List.find?_eq_none.mp hnone e he

/-- The evaluation of rules of which none fails. -/
lemma eval_of_complete (hreturn : ¬ cie.returnAddressRegister.toNat ≥ regs.total)
    (hcfa : evalCfa section_ cie memory locRegs regs = .ok cfa)
    (hcomplete : complete section_ cie memory locRegs cfa regs = true) :
    eval section_ cie memory locRegs regs =
      (.ok (regs.sp ≠ cfa || regs.pc ≠ returnAddress section_ cie memory locRegs cfa regs),
        { (evalRules section_ cie memory locRegs cfa locRegs.entries false regs).2 with
          pc := returnAddress section_ cie memory locRegs cfa regs
          sp := cfa }) := by
  rw [← returnAddress_eq hcomplete]
  obtain ⟨-, hfst⟩ | ⟨hnot, -⟩ :=
    evalRules_fst section_ cie memory cfa false (.initial locRegs regs)
  · rw [Bool.false_or] at hfst
    simp only [eval, if_neg hreturn, hcfa]
    rw [Prod.ext (y := (_, _)) hfst rfl]
  · rw [complete, hnot] at hcomplete
    cases hcomplete

/-- The evaluation of rules of which one fails. -/
lemma eval_of_not_complete (hreturn : ¬ cie.returnAddressRegister.toNat ≥ regs.total)
    (hcfa : evalCfa section_ cie memory locRegs regs = .ok cfa)
    (hcomplete : ¬ complete section_ cie memory locRegs cfa regs) :
    ∃ err, eval section_ cie memory locRegs regs = (.error err,
      (evalRules section_ cie memory locRegs cfa locRegs.entries false regs).2) := by
  obtain ⟨hall, -⟩ | ⟨-, err, hfst⟩ :=
    evalRules_fst section_ cie memory cfa false (.initial locRegs regs)
  · exact absurd hall hcomplete
  · refine ⟨err, ?_⟩
    simp only [eval, if_neg hreturn, hcfa]
    rw [Prod.ext (y := (_, _)) hfst rfl]

/-- **The registers of the calling frame are assigned at once.**  Unless the evaluation stops with
an error, no rule fails on the registers before the step, each register with a rule has the value
that the rule gives on those, and the others are as they were; this for every order of the rules. -/
theorem eval_simultaneous {more : Bool} {regs' : Regs w}
    (h : eval section_ cie memory locRegs regs = (.ok more, regs')) :
    ∃ cfa, evalCfa section_ cie memory locRegs regs = .ok cfa ∧ regs'.sp = cfa ∧
      (∀ e ∈ locRegs.entries, (entryEffect section_ cie memory locRegs cfa regs e).fails = false ∧
        regs'.regs e.1.toNat =
          (entryEffect section_ cie memory locRegs cfa regs e).result (regs.regs e.1.toNat)) ∧
      (∀ r, (∀ e ∈ locRegs.entries, e.1.toNat ≠ r) → regs'.regs r = regs.regs r) ∧
      regs'.pc = if locRegs.entries.any fun e => undefinesReturn cie regs.total e.1 e.2 then 0
        else regs'.regs cie.returnAddressRegister.toNat := by
  by_cases hreturn : cie.returnAddressRegister.toNat ≥ regs.total
  · simp [eval, hreturn] at h
  cases hcfa : evalCfa section_ cie memory locRegs regs with
  | error e => simp [eval, hreturn, hcfa] at h
  | ok cfa =>
    by_cases hcomplete : complete section_ cie memory locRegs cfa regs
    · have hall := fails_of_complete hcomplete
      rw [eval_of_complete hreturn hcfa hcomplete] at h
      obtain ⟨-, rfl⟩ := Prod.mk.inj h
      refine ⟨cfa, rfl, rfl, fun e he => ⟨hall e he, ?_⟩, fun r hr => ?_, ?_⟩
      · exact evalRules_result false (.initial locRegs regs) hall e he
      · exact evalRules_other false regs hr
      · exact (returnAddress_eq hcomplete).symm
    · obtain ⟨err, heval⟩ := eval_of_not_complete hreturn hcfa hcomplete
      rw [heval] at h
      cases h

end Rules

/-- Register 1 has the offset 4 from the frame address, which is register 0 and 8, and register 2
gets what is in register 0. -/
theorem eval_simultaneous_offset :
    let locRegs : LocRegs := ⟨[(1, ⟨.VAL_OFFSET, 4, 0⟩), (2, ⟨.REGISTER, 0, 0⟩),
      (cfaReg, ⟨.REGISTER, 0, 8⟩)], by decide⟩
    let frames : DwarfSection 32 := ⟨fun _ => .error .NONE, fun _ _ _ _ => .error .NONE⟩
    let regs : Regs 32 := ⟨3, 1, 0, 0, fun r => 16 + r⟩
    let regs' := (eval frames ⟨1, 1⟩ (fun _ v => .ok v) locRegs regs).2
    regs'.sp = 24 ∧ regs'.pc = 28 ∧ regs'.regs 2 = 16 ∧ regs'.regs 0 = 16 := by
  intro locRegs frames regs regs'
  have heval : eval frames ⟨1, 1⟩ (fun _ v => .ok v) locRegs regs = (.ok true, regs') := rfl
  obtain ⟨cfa, hcfa, hsp, hrules, hother, hpc⟩ := eval_simultaneous heval
  obtain rfl := Except.ok.inj hcfa
  exact ⟨hsp, hpc.trans (hrules _ mem_cons_self).2, (hrules _ (.tail _ mem_cons_self)).2,
    hother 0 (by decide)⟩

section Step

variable {section_ memory} {regs : Regs w} {pc : BitVec 64}

/-- **When a section succeeds**, told from the registers before the step. -/
theorem step_eq_true :
    (section_.step memory pc regs).1 = .ok true ↔ section_.succeeds memory pc regs := by
  unfold step DwarfSection.succeeds
  cases section_.locate pc with
  | error e => simp
  | ok found =>
    obtain ⟨cie, locRegs⟩ := found
    dsimp only
    by_cases hreturn : cie.returnAddressRegister.toNat ≥ regs.total
    · simp [eval, hreturn]
    rw [if_neg hreturn]
    cases hcfa : evalCfa section_ cie memory locRegs regs with
    | error e => simp [eval, hreturn, hcfa]
    | ok cfa =>
      by_cases hcomplete : complete section_ cie memory locRegs cfa regs
      · rw [eval_of_complete hreturn hcfa hcomplete]
        simp [hcomplete]
      · obtain ⟨err, heval⟩ := eval_of_not_complete hreturn hcfa hcomplete
        simp [heval, hcomplete]

/-- **When a section that fails leaves the registers as they were.** -/
theorem step_regs_iff (hfails : section_.succeeds memory pc regs = false) :
    (section_.step memory pc regs).2 = regs ↔ section_.quiet memory pc regs := by
  unfold DwarfSection.succeeds at hfails
  unfold step quiet
  cases hlocate : section_.locate pc with
  | error e => simp
  | ok found =>
    obtain ⟨cie, locRegs⟩ := found
    rw [hlocate] at hfails
    dsimp only at hfails ⊢
    by_cases hreturn : cie.returnAddressRegister.toNat ≥ regs.total
    · simp [eval, hreturn]
    rw [if_neg hreturn] at hfails ⊢
    cases hcfa : evalCfa section_ cie memory locRegs regs with
    | error e => simp [eval, hreturn, hcfa]
    | ok cfa =>
      rw [hcfa] at hfails
      refine Iff.trans ?_ (evalRules_regs_iff false locRegs.nodup)
      by_cases hcomplete : complete section_ cie memory locRegs cfa regs
      · -- the frame stays where it is, and so do pc and sp
        rw [eval_of_complete hreturn hcfa hcomplete]
        simp only [hcomplete, Bool.true_and, Bool.or_eq_false_iff, decide_eq_false_iff_not, not_not]
          at hfails
        obtain ⟨hpc, hsp⟩ :=
          evalRules_frame section_ cie memory locRegs cfa locRegs.entries false regs
        rw [update_self (hpc.trans hfails.2) (hsp.trans hfails.1)]
      · obtain ⟨err, heval⟩ := eval_of_not_complete hreturn hcfa hcomplete
        rw [heval]

end Step

end Unwind
