import AlpsSystem.Vintf.HalManifest

/-!
# What compatibility promises

`isCompatible` fills one cell per version and resets it first, so entries with a version in common
would overwrite each other; `shouldAdd` keeps the major versions of one name apart.

* `isCompatible_iff` — a requirement is satisfied exactly when one entry serves it.
* `build_promise` — it stays satisfied, and its instances have the transport of that entry.
-/

namespace Vintf

open List

variable {m : HalManifest} {cell : InstancesOfVersion}

/-! ## Major versions -/

lemma insertMajors_iff {existing : List Nat} {vs : List Version} (h : existing.Nodup) :
    insertMajors existing vs = true ↔ (vs.map (·.majorVer) ++ existing).Nodup := by
  induction vs generalizing existing with
  | nil => simpa [insertMajors] using h
  | cons v vs ih =>
    by_cases hv : v.majorVer ∈ existing
    · simp [insertMajors, hv]
    · have hcons := ih (nodup_cons.mpr ⟨hv, h⟩)
      simp only [insertMajors, hv, if_false, hcons]
      exact perm_middle.nodup_iff

open AList HalManifest VersionRange

namespace HalManifest

lemma emplace_perm (m : HalManifest) (hal : ManifestHal) :
    (m.emplace hal).mHals.Perm (hal :: m.mHals) := by
  refine perm_middle.trans ?_
  rw [takeWhile_append_dropWhile]

lemma getHals_emplace (m : HalManifest) (hal : ManifestHal) (name : String) :
    ((m.emplace hal).getHals name).Perm
      (if hal.name = name then hal :: m.getHals name else m.getHals name) := by
  refine ((m.emplace_perm hal).filter _).trans (.of_eq ?_)
  by_cases h : hal.name = name
  · simp [getHals, h]
  · simp [getHals, h]

variable {hal : ManifestHal} {name : String}

lemma mem_getHals_emplace {h : ManifestHal}
    (hh : h ∈ m.getHals name) : h ∈ (m.emplace hal).getHals name := by
  rw [(m.getHals_emplace hal name).mem_iff]
  split
  · exact mem_cons_of_mem _ hh
  · exact hh

/-- No major version occurs twice among the entries of one name. -/
def MajorsDistinct (m : HalManifest) : Prop := ∀ name, (m.existingMajorVersions name).Nodup

lemma MajorsDistinct.emplace (h : m.MajorsDistinct)
    (hadd : m.shouldAdd hal) : (m.emplace hal).MajorsDistinct := by
  intro name
  have hperm := ((m.getHals_emplace hal name).flatMap_right (·.versions)).map (·.majorVer)
  rw [existingMajorVersions, hperm.nodup_iff]
  split
  · next hname =>
    rw [shouldAdd, Bool.and_eq_true, insertMajors_iff (h _), hname] at hadd
    simpa [existingMajorVersions] using hadd.2
  · exact h name

lemma MajorsDistinct.add (h : m.MajorsDistinct) (hal : ManifestHal) :
    (m.add hal).2.MajorsDistinct := by
  rw [HalManifest.add]
  split
  · next hadd => exact h.emplace hadd
  · exact h

lemma MajorsDistinct.addAll {hals : List ManifestHal} (h : m.MajorsDistinct) :
    (m.addAll hals).2.MajorsDistinct := by
  induction hals generalizing m with
  | nil => exact h
  | cons hal rest ih =>
    have hadd := h.add hal
    rw [addAll]
    split
    · next m' heq => exact ih (by simpa [heq] using hadd)
    · next m' heq => simpa [heq] using hadd

/-- **The majors of one name are distinct** in every manifest that `add` and `addAll` build. -/
theorem build_majors (ops : List Op) : (build ops).MajorsDistinct := by
  suffices hfold : ∀ m : HalManifest, m.MajorsDistinct →
      (ops.foldl apply m).MajorsDistinct from hfold {} fun _ => nodup_nil
  induction ops with
  | nil => intro m h; exact h
  | cons op ops ih =>
    intro m h
    refine ih _ ?_
    cases op with
    | add hal => exact h.add hal
    | addAll other => exact h.addAll

/-- Entries of one name with a major version in common are the same. -/
lemma MajorsDistinct.eq_of_major (h : m.MajorsDistinct)
    {hal' : ManifestHal} (hhal : hal ∈ m.getHals name) (hhal' : hal' ∈ m.getHals name)
    {v v' : Version} (hv : v ∈ hal.versions) (hv' : v' ∈ hal'.versions)
    (hmajor : v.majorVer = v'.majorVer) : hal = hal' := by
  by_contra hne
  have hmajors := h name
  rw [existingMajorVersions, map_flatMap, nodup_flatMap] at hmajors
  have : Std.Symm (Function.onFun List.Disjoint fun hal : ManifestHal =>
      hal.versions.map (·.majorVer)) := ⟨fun _ _ hd => hd.symm⟩
  have hdisjoint := hmajors.2.forall hhal hhal' hne
  exact hdisjoint (mem_map_of_mem hv) (hmajor ▸ mem_map_of_mem hv')

end HalManifest

/-! ## Cells -/

/-- The cell that an entry with these interfaces leaves for each of its versions. -/
def cellOf (interfaces : Interfaces) : InstancesOfVersion := interfaces.entries.foldl addInterface ∅

lemma lookup_foldl_addInterface {entries : List (Sigma fun _ : String => HalInterface)}
    (h : entries.NodupKeys)
    (hcell : ∀ p ∈ entries, cell.lookup p.1 = none) (name : String) :
    (entries.foldl addInterface cell).lookup name =
      ((entries.dlookup name).map (·.instances)).or (cell.lookup name) := by
  induction entries generalizing cell with
  | nil => simp
  | cons p entries ih =>
    rw [nodupKeys_cons] at h
    have hp := hcell p mem_cons_self
    have hrest : ∀ q ∈ entries, (addInterface cell p).lookup q.1 = none := by
      intro q hq
      have hne : q.1 ≠ p.1 := fun heq => h.1 (heq ▸ mem_keys_of_mem hq)
      rw [addInterface, lookup_insert_ne hne]
      exact hcell q (mem_cons_of_mem _ hq)
    rw [foldl_cons, ih h.2 hrest]
    by_cases hname : name = p.1
    · subst hname
      have hnone : entries.dlookup p.1 = none := dlookup_eq_none.mpr h.1
      simp [addInterface, hnone, hp, List.dlookup]
    · rw [addInterface, lookup_insert_ne hname]
      simp [List.dlookup, Ne.symm hname]

lemma lookup_cellOf (interfaces : Interfaces) (name : String) :
    (cellOf interfaces).lookup name = (interfaces.lookup name).map (·.instances) := by
  rw [cellOf, lookup_foldl_addInterface interfaces.nodupKeys (by simp)]
  simp [AList.lookup]

lemma lookup_addVersion (interfaces : Interfaces) (instances : Instances) (v v' : Version) :
    (addVersion interfaces instances v).lookup v' =
      if v' = v then some (cellOf interfaces) else instances.lookup v' := by
  suffices hfold : ∀ (entries : List (Sigma fun _ : String => HalInterface)) (acc : Instances) cell,
      acc.lookup v = some cell →
      (entries.foldl (fun instances p =>
        instances.insert v (addInterface ((instances.lookup v).getD ∅) p)) acc).lookup v' =
      if v' = v then some (entries.foldl addInterface cell) else acc.lookup v' by
    rw [addVersion, hfold _ _ ∅ (lookup_insert _)]
    split
    · rfl
    · next hne => rw [lookup_insert_ne hne]
  intro entries
  induction entries with
  | nil =>
    intro acc cell hacc
    split
    · next heq => rw [heq]; exact hacc
    · rfl
  | cons p entries ih =>
    intro acc cell hacc
    rw [foldl_cons, ih _ _ (lookup_insert _)]
    split
    · simp [hacc]
    · next hne => rw [lookup_insert_ne hne]

lemma lookup_addEntry (instances : Instances) (hal : ManifestHal) (v : Version) :
    (addEntry instances hal).lookup v =
      if v ∈ hal.versions then some (cellOf hal.interfaces) else instances.lookup v := by
  rw [addEntry]
  induction hal.versions generalizing instances with
  | nil => simp
  | cons v' versions ih =>
    rw [foldl_cons, ih, lookup_addVersion]
    grind

/-- The cells come from the entries, and an entry that shares no version keeps its cell. -/
lemma lookup_entries {hals : List ManifestHal} {v : Version}
    (hone : ∀ hal ∈ hals, ∀ hal' ∈ hals, v ∈ hal.versions → v ∈ hal'.versions → hal = hal') :
    (hals.foldl addEntry ∅).lookup v = some cell ↔
      ∃ hal ∈ hals, v ∈ hal.versions ∧ cell = cellOf hal.interfaces := by
  induction hals using List.reverseRecOn with
  | nil => simp
  | append_singleton hals hal ih =>
    rw [foldl_append, foldl_cons, foldl_nil, lookup_addEntry]
    by_cases hv : v ∈ hal.versions
    · simp only [hv, if_true]
      constructor
      · intro heq
        exact ⟨hal, by simp, hv, by simpa using heq.symm⟩
      · rintro ⟨hal', hhal', hv', rfl⟩
        rw [hone hal (by simp) hal' hhal' hv hv']
    · grind

/-! ## The promise -/

/-- The entry has a version of the range and declares every required interface with every required
instance. -/
structure Serves (req : MatrixHal) (hal : ManifestHal) (r : VersionRange) : Prop where
  version : ∃ v ∈ hal.versions, v.majorVer = r.majorVer ∧ r.minMinor ≤ v.minorVer
  instances : ∀ name required, req.interfaces.lookup name = some required →
    ∃ declared, hal.interfaces.lookup name = some declared ∧ required.instances ⊆ declared.instances

lemma satisfyAllInstances_iff (req : MatrixHal) (interfaces : Interfaces) :
    satisfyAllInstances req (cellOf interfaces) ↔
      ∀ name required, req.interfaces.lookup name = some required →
        ∃ declared, interfaces.lookup name = some declared ∧
          required.instances ⊆ declared.instances := by
  have hentry : ∀ name required, req.interfaces.lookup name = some required ↔
      ⟨name, required⟩ ∈ req.interfaces.entries := fun name required =>
    mem_lookup_iff
  simp only [satisfyAllInstances, all_eq_true, lookup_cellOf, hentry]
  constructor
  · intro h name required hmem
    have hreq := h _ hmem
    cases hl : interfaces.lookup name with
    | none => simp [hl] at hreq
    | some declared => exact ⟨declared, rfl, by simpa [hl] using hreq⟩
  · rintro h ⟨name, required⟩ hmem
    obtain ⟨declared, hl, hsub⟩ := h name required hmem
    simpa [hl] using hsub

lemma isCompatible_iff (h : m.MajorsDistinct) (req : MatrixHal) :
    m.isCompatible req ↔ ∃ hal ∈ m.getHals req.name, ∃ r ∈ req.versionRanges, Serves req hal r := by
  have hcell : ∀ v cell, ⟨v, cell⟩ ∈ ((m.getHals req.name).foldl addEntry ∅).entries ↔
      ∃ hal ∈ m.getHals req.name, v ∈ hal.versions ∧ cell = cellOf hal.interfaces := by
    intro v cell
    rw [← lookup_entries fun hal hhal hal' hhal' hv hv' => h.eq_of_major hhal hhal' hv hv' rfl]
    exact mem_lookup_iff.symm
  rw [isCompatible, any_eq_true]
  constructor
  · rintro ⟨⟨v, cell⟩, hmem, hsat⟩
    obtain ⟨hal, hhal, hv, rfl⟩ := (hcell v cell).mp hmem
    simp only [satisfyVersion, Bool.and_eq_true, any_eq_true, satisfyAllInstances_iff] at hsat
    obtain ⟨⟨r, hr, hsup⟩, hinst⟩ := hsat
    simp only [supportedBy, Bool.and_eq_true, beq_iff_eq, decide_eq_true_eq] at hsup
    exact ⟨hal, hhal, r, hr, ⟨v, hv, hsup.1.symm, hsup.2⟩, hinst⟩
  · rintro ⟨hal, hhal, r, hr, ⟨v, hv, hmajor, hminor⟩, hinst⟩
    refine ⟨⟨v, _⟩, (hcell v _).mpr ⟨hal, hhal, hv, rfl⟩, ?_⟩
    simp only [satisfyVersion, Bool.and_eq_true, any_eq_true, satisfyAllInstances_iff]
    exact ⟨⟨r, hr, by simp [supportedBy, hmajor, hminor]⟩, hinst⟩

/-- The entry that `getTransport` finds is the one that serves the range. -/
lemma getTransport_eq (h : m.MajorsDistinct) {req : MatrixHal}
    {hal : ManifestHal} (hhal : hal ∈ m.getHals req.name) {r : VersionRange}
    (hserves : Serves req hal r) {name : String} {required : HalInterface}
    (hreq : req.interfaces.lookup name = some required) {inst : String}
    (hinst : inst ∈ required.instances) :
    m.getTransport req.name r.minVer name inst = hal.transportArch.transport := by
  obtain ⟨⟨v, hv, hmajor, hminor⟩, hdeclares⟩ := hserves
  obtain ⟨declared, hdeclared, hsub⟩ := hdeclares name required hreq
  have hself : serves hal r.minVer name inst := by
    simp only [serves, hdeclared, minVer, Bool.and_eq_true,
      any_eq_true, decide_eq_true_eq, beq_iff_eq]
    exact ⟨⟨v, hv, hmajor, decide_eq_true hminor⟩, hsub hinst⟩
  rw [getTransport]
  split
  · next found hfound =>
    have hmem := mem_of_find?_eq_some hfound
    have hfound := List.find?_some hfound
    simp only [serves, minVer, Bool.and_eq_true, any_eq_true, beq_iff_eq] at hfound
    obtain ⟨⟨v', hv', hmajor', -⟩, -⟩ := hfound
    rw [h.eq_of_major hmem hhal hv' hv (hmajor'.trans hmajor.symm)]
  · next hnone => exact absurd hself (List.find?_eq_none.mp hnone hal hhal)

/-- What a manifest promises for the HAL of a matrix. -/
structure Promise (m : HalManifest) (req : MatrixHal) : Prop where
  majors : m.MajorsDistinct
  compatible : m.isCompatible req = true ↔
    ∃ hal ∈ m.getHals req.name, ∃ r ∈ req.versionRanges, Serves req hal r
  transport : ∀ hal ∈ m.getHals req.name, ∀ r ∈ req.versionRanges, Serves req hal r →
    ∀ name required, req.interfaces.lookup name = some required → ∀ inst ∈ required.instances,
      m.getTransport req.name r.minVer name inst = hal.transportArch.transport
  kept : ∀ hal, (m.add hal).1 = true → m.isCompatible req = true →
    (m.add hal).2.isCompatible req = true

/-- **Compatibility keeps its promise** for every manifest that `add` and `addAll` build. -/
theorem build_promise (ops : List Op) (req : MatrixHal) : Promise (build ops) req := by
  have hmajors := build_majors ops
  refine ⟨hmajors, isCompatible_iff hmajors req, ?_, ?_⟩
  · intro hal hhal r _ hserves name required hreq inst hinst
    exact getTransport_eq hmajors hhal hserves hreq hinst
  · intro hal hadd hcompatible
    rw [add] at hadd ⊢
    split at hadd
    · next hshould =>
      rw [if_pos hshould]
      rw [isCompatible_iff (hmajors.emplace hshould)]
      obtain ⟨h, hh, r, hr, hserves⟩ := (isCompatible_iff hmajors req).mp hcompatible
      exact ⟨h, mem_getHals_emplace hh, r, hr, hserves⟩
    · exact absurd hadd nofun

end Vintf
