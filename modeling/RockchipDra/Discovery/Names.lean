import RockchipDra.Discovery.Enumerate

/-!
# The names of enumerated devices

A name is a stem and a number: the type, for a VPU the block, and an ordinal. Names are decoded
uniquely (`IsDeviceName.append_inj`), because no stem is the start of another one and a number ends
where the digits end.

Every enumerated device has such a name (`Device.Labeled.isDeviceName`), and no two devices of one
enumeration have the same one (`enumerate_names_nodup`).
-/

namespace RockchipDra.Discovery

open Go

/-! ## The forms of names -/

/-- The names that an enumeration gives. -/
inductive IsDeviceName : String → Prop
  | npu : IsDeviceName "npu-0"
  | gpu : IsDeviceName "gpu-0"
  | rga (n : ℕ) : IsDeviceName ("rga-" ++ toString n)
  | vpu (block : String) (hblock : block ∈ vpuBlocks) (n : ℕ) :
      IsDeviceName ("vpu-" ++ block ++ "-" ++ toString n)

/-- Enumerated devices have such names. -/
theorem Device.Labeled.isDeviceName {d : Device} (h : d.Labeled) : IsDeviceName d.name := by
  cases h with
  | npu name => exact name ▸ .npu
  | gpu name => exact name ▸ .gpu
  | rga n name => exact name ▸ .rga n
  | vpu n name _ block => exact name ▸ .vpu d.block block n

/-- What stands before the number in a name. -/
def nameStems : List String :=
  "npu-" :: "gpu-" :: "rga-" :: vpuBlocks.map fun block => "vpu-" ++ block ++ "-"

/-- No stem is the start of another one. -/
theorem nameStems_apart : ∀ a ∈ nameStems, ∀ b ∈ nameStems, a.toList <+: b.toList → a = b := by
  decide

theorem IsDeviceName.stem {name : String} (h : IsDeviceName name) :
    ∃ stem ∈ nameStems, ∃ n : ℕ, name = stem ++ toString n := by
  cases h with
  | npu => exact ⟨"npu-", by decide, 0, by decide⟩
  | gpu => exact ⟨"gpu-", by decide, 0, by decide⟩
  | rga n => exact ⟨"rga-", by decide, n, rfl⟩
  | vpu block hblock n =>
    refine ⟨"vpu-" ++ block ++ "-", ?_, n, rfl⟩
    simp only [nameStems, List.mem_cons, List.mem_map]
    exact .inr (.inr (.inr ⟨block, hblock, rfl⟩))

/-- A stem is read off a text that starts with it. -/
theorem stem_append_inj {a b : String} (ha : a ∈ nameStems) (hb : b ∈ nameStems) {r r' : List Char}
    (h : a.toList ++ r = b.toList ++ r') : a = b ∧ r = r' := by
  -- Of two stems that start one text, one starts the other.
  have hab : a = b := by
    have hpa : a.toList <+: b.toList ++ r' := ⟨r, h⟩
    rcases List.prefix_or_prefix_of_prefix hpa (List.prefix_append b.toList r') with hp | hp
    · exact nameStems_apart a ha b hb hp
    · exact (nameStems_apart b hb a ha hp).symm
  subst hab
  exact ⟨rfl, List.append_cancel_left h⟩

/-- A name that is followed by something that is no digit is read off. -/
theorem IsDeviceName.append_inj {d d' : String} (h : IsDeviceName d) (h' : IsDeviceName d')
    {rest rest' : List Char} (hrest : ∀ c ∈ rest.head?, ¬c.isDigit)
    (hrest' : ∀ c ∈ rest'.head?, ¬c.isDigit) (heq : d.toList ++ rest = d'.toList ++ rest') :
    d = d' ∧ rest = rest' := by
  obtain ⟨a, ha, n, hd⟩ := h.stem
  obtain ⟨b, hb, n', hd'⟩ := h'.stem
  rw [hd, hd', String.toList_append, String.toList_append, List.append_assoc,
    List.append_assoc] at heq
  -- First the stems are read off, then the numbers, which end where the digits end.
  obtain ⟨hab, heq⟩ := stem_append_inj ha hb heq
  obtain ⟨hn, hrest⟩ := Strings.decimal_append_inj hrest hrest' heq
  exact ⟨by rw [hd, hd', hab, hn], hrest⟩

/-- Two names with stems are equal only where the stems and the numbers are. -/
theorem stem_number_inj {a b : String} (ha : a ∈ nameStems) (hb : b ∈ nameStems) {n n' : ℕ}
    (h : a ++ toString n = b ++ toString n') : a = b ∧ n = n' := by
  have hlist := congrArg String.toList h
  rw [String.toList_append, String.toList_append] at hlist
  obtain ⟨hab, hdigits⟩ := stem_append_inj ha hb hlist
  have hnone : ∀ c ∈ ([] : List Char).head?, ¬c.isDigit := by simp
  refine ⟨hab, (Strings.decimal_append_inj hnone hnone ?_).1⟩
  rw [List.append_nil, List.append_nil, hdigits]

/-- Two VPU names are equal only where the blocks and the ordinals are. -/
theorem vpuName_inj {b b' : String} (hb : b ∈ vpuBlocks) (hb' : b' ∈ vpuBlocks) {n n' : ℕ}
    (h : "vpu-" ++ b ++ "-" ++ toString n = "vpu-" ++ b' ++ "-" ++ toString n') :
    b = b' ∧ n = n' := by
  have hstem : ∀ b ∈ vpuBlocks, "vpu-" ++ b ++ "-" ∈ nameStems := by decide
  obtain ⟨hstems, hn⟩ := stem_number_inj (hstem b hb) (hstem b' hb') h
  have hblocks : ∀ b ∈ vpuBlocks, ∀ b' ∈ vpuBlocks,
      "vpu-" ++ b ++ "-" = "vpu-" ++ b' ++ "-" → b = b' := by decide
  exact ⟨hblocks b hb b' hb' hstems, hn⟩

/-- The types and blocks of devices. -/
def labels : List (String × String) :=
  (Consts.typeNPU, "") :: (Consts.typeGPU, "") :: (Consts.typeRGA, "") ::
    vpuBlocks.map fun block => (Consts.typeVPU, block)

/-- The stem of the names of a type and a block. -/
def labelStem (label : String × String) : String :=
  if label.2 = "" then label.1 ++ "-" else label.1 ++ "-" ++ label.2 ++ "-"

theorem labelStem_mem : ∀ a ∈ labels, labelStem a ∈ nameStems := by decide

theorem labelStem_inj : ∀ a ∈ labels, ∀ b ∈ labels, labelStem a = labelStem b → a = b := by decide

/-- A labeled device has the stem of its type and block. -/
theorem Device.Labeled.label {d : Device} (h : d.Labeled) :
    (d.type, d.block) ∈ labels ∧ ∃ n : ℕ, d.name = labelStem (d.type, d.block) ++ toString n := by
  cases h with
  | npu name type block =>
    rw [name, type, block]
    exact ⟨by decide, 0, by decide⟩
  | gpu name type block =>
    rw [name, type, block]
    exact ⟨by decide, 0, by decide⟩
  | rga n name type block =>
    rw [name, type, block]
    exact ⟨by decide, n, rfl⟩
  | vpu n name type block =>
    have hstem : ∀ b ∈ vpuBlocks, (Consts.typeVPU, b) ∈ labels ∧
        "vpu-" ++ b ++ "-" = labelStem (Consts.typeVPU, b) := by decide
    rw [name, type, (hstem d.block block).2]
    exact ⟨(hstem d.block block).1, n, rfl⟩

/-- Devices with one name have one type and one block. -/
theorem Device.Labeled.eq_of_name {d d' : Device} (h : d.Labeled) (h' : d'.Labeled)
    (hname : d.name = d'.name) : (d.type, d.block) = (d'.type, d'.block) := by
  obtain ⟨hmem, n, hn⟩ := h.label
  obtain ⟨hmem', n', hn'⟩ := h'.label
  rw [hn, hn'] at hname
  have hstems := (stem_number_inj (labelStem_mem _ hmem) (labelStem_mem _ hmem') hname).1
  exact labelStem_inj _ hmem _ hmem' hstems

/-! ## Distinct names -/

/-- The VPU devices of nodes with proper blocks have different names. -/
theorem vpuDevices_names_nodup (t : Tree) (soc : String) (maxAlloc : Int64)
    (counts : Std.ExtTreeMap String ℕ) {ms : List VpuMatch} (hms : ∀ m ∈ ms, m.block ∈ vpuBlocks) :
    ((vpuDevices t soc maxAlloc counts ms).map Device.name).Nodup := by
  induction ms generalizing counts with
  | nil => exact List.nodup_nil
  | cons m ms ih =>
    rw [List.forall_mem_cons] at hms
    rw [vpuDevices, List.map_cons, List.nodup_cons]
    refine ⟨?_, ih _ hms.2⟩
    -- A later node of the same block has a greater ordinal.
    intro hmem
    obtain ⟨d, hd, hname⟩ := List.mem_map.mp hmem
    obtain ⟨m', hm', n, hn, rfl⟩ := mem_vpuDevices hd
    rw [vpuDevice, vpuDevice, applyNodeGID_name, applyNodeGID_name] at hname
    obtain ⟨hblock, hordinal⟩ := vpuName_inj (hms.2 m' hm') hms.1 hname
    rw [hblock, Std.ExtTreeMap.getD_insert_self] at hn
    omega

theorem discoverVPU_names_nodup (t : Tree) (cfg : Config) (soc : String) :
    ((discoverVPU t cfg soc).map Device.name).Nodup := by
  refine vpuDevices_names_nodup _ _ _ _ fun m hm => ?_
  rw [(Slices.sortFunc_perm _ _).mem_iff] at hm
  exact classifyVPU_block (classifyVPU_of_mem hm).2

theorem discoverRGA_names_nodup (t : Tree) (cfg : Config) (soc : String) :
    ((discoverRGA t cfg soc).map Device.name).Nodup := by
  unfold discoverRGA
  dsimp only
  generalize Slices.sortFunc _ _ = nodes
  rw [List.map_map]
  -- The names depend on the positions only.
  have hnames : (Device.name ∘ fun p : V4lNode × ℕ => rgaDevice t soc
      (if cfg.rgaMaxAllocations ≤ 0 then Consts.defaultRGAMaxAllocations else cfg.rgaMaxAllocations)
      p.1 p.2) = (fun n => "rga-" ++ toString n) ∘ Prod.snd := by
    funext p
    simp [rgaDevice]
  rw [hnames, ← List.map_map, List.zipIdx_map_snd]
  refine List.Nodup.map ?_ List.nodup_range'
  intro n n' h
  exact (stem_number_inj (by decide) (by decide) h).2

/-- Devices of one type with different names. -/
def Named (type : String) (l : List Device) : Prop :=
  (l.map Device.name).Nodup ∧ ∀ d ∈ l, d.Labeled ∧ d.type = type

theorem Named.sublist {type : String} {l l' : List Device} (h : Named type l)
    (hsub : l'.Sublist l) :
    Named type l' :=
  ⟨h.1.sublist (hsub.map _), fun d hd => h.2 d (hsub.subset hd)⟩

/-- Devices of two types have different names. -/
theorem Named.ne {a b : String} {l l' : List Device} (h : Named a l) (h' : Named b l')
    (hab : a ≠ b) :
    ∀ x ∈ l.map Device.name, ∀ y ∈ l'.map Device.name, x ≠ y := by
  intro x hx y hy hxy
  obtain ⟨d, hd, rfl⟩ := List.mem_map.mp hx
  obtain ⟨d', hd', rfl⟩ := List.mem_map.mp hy
  obtain ⟨hlabel, htype⟩ := h.2 d hd
  obtain ⟨hlabel', htype'⟩ := h'.2 d' hd'
  have heq := congrArg Prod.fst (hlabel.eq_of_name hlabel' hxy)
  exact hab (htype.symm.trans (heq.trans htype'))

section Parts

variable (t : Tree) (cfg : Config) (soc : String)

theorem discoverNPU_named : Named Consts.typeNPU (discoverNPU t cfg soc) := by
  refine ⟨?_, fun d hd => ?_⟩
  · unfold discoverNPU
    dsimp only
    split_ifs <;> simp
  · have h := discoverNPU_labeled t cfg soc d hd
    exact ⟨h.1, h.2.1⟩

theorem discoverGPU_named : Named Consts.typeGPU (discoverGPU t cfg soc) := by
  refine ⟨?_, fun d hd => ?_⟩
  · unfold discoverGPU
    dsimp only
    split
    · simp
    · split_ifs <;> simp
  · have h := discoverGPU_labeled t cfg soc d hd
    exact ⟨h.1, h.2.1⟩

theorem discoverVPU_named : Named Consts.typeVPU (discoverVPU t cfg soc) := by
  refine ⟨discoverVPU_names_nodup t cfg soc, fun d hd => ?_⟩
  have h := discoverVPU_labeled t cfg soc d hd
  exact ⟨h.1, h.2.1⟩

theorem discoverRGA_named : Named Consts.typeRGA (discoverRGA t cfg soc) := by
  refine ⟨discoverRGA_names_nodup t cfg soc, fun d hd => ?_⟩
  have h := discoverRGA_labeled t cfg soc d hd
  exact ⟨h.1, h.2.1⟩

end Parts

/-- The enumeration outside mock mode, by its parts: each has devices of one type. -/
theorem enumerate_parts {t : Tree} {cfg : Config} (hmock : cfg.mock = false) :
    ∃ npu gpu vpu rga, enumerate t cfg = npu ++ gpu ++ vpu ++ rga ∧ Named Consts.typeNPU npu ∧
      Named Consts.typeGPU gpu ∧ Named Consts.typeVPU vpu ∧ Named Consts.typeRGA rga ∧
      vpu = (if (defaultConfig cfg).vpuEnabled then
        discoverVPU t (defaultConfig cfg) (enumeratedSoC t cfg) else []) ∧
      rga = (if (defaultConfig cfg).rgaEnabled then
        discoverRGA t (defaultConfig cfg) (enumeratedSoC t cfg) else []) := by
  have hmock' : (defaultConfig cfg).mock = false := by
    unfold defaultConfig
    dsimp only
    split_ifs <;> exact hmock
  unfold enumerate enumeratedSoC
  generalize defaultConfig cfg = c at hmock' ⊢
  dsimp only
  rw [hmock']
  exact ⟨_, _, _, _, rfl, (discoverNPU_named t c _).sublist (sublist_ite _ _),
    (discoverGPU_named t c _).sublist (sublist_ite _ _),
    (discoverVPU_named t c _).sublist (sublist_ite _ _),
    (discoverRGA_named t c _).sublist (sublist_ite _ _), rfl, rfl⟩

/-- The devices of an enumeration have different names. -/
theorem enumerate_names_nodup {t : Tree} {cfg : Config} (hmock : cfg.mock = false) :
    ((enumerate t cfg).map Device.name).Nodup := by
  obtain ⟨npu, gpu, vpu, rga, heq, hnpu, hgpu, hvpu, hrga, -, -⟩ := enumerate_parts (t := t) hmock
  rw [heq, List.append_assoc, List.append_assoc, List.map_append, List.map_append, List.map_append,
    List.nodup_append, List.nodup_append, List.nodup_append]
  -- Within a part the names differ by their numbers, across parts by the types in their stems.
  refine ⟨hnpu.1, ⟨hgpu.1, ⟨hvpu.1, hrga.1, hvpu.ne hrga (by decide)⟩, ?_⟩, ?_⟩
  · intro x hx y hy
    rcases List.mem_append.mp hy with hy | hy
    · exact hgpu.ne hvpu (by decide) x hx y hy
    · exact hgpu.ne hrga (by decide) x hx y hy
  · intro x hx y hy
    rcases List.mem_append.mp hy with hy | hy
    · exact hnpu.ne hgpu (by decide) x hx y hy
    rcases List.mem_append.mp hy with hy | hy
    · exact hnpu.ne hvpu (by decide) x hx y hy
    · exact hnpu.ne hrga (by decide) x hx y hy

/-- Filtering a list of devices of one type by a type. -/
theorem Named.filter {a : String} {l : List Device} (h : Named a l) (b : String) :
    l.filter (·.type = b) = if a = b then l else [] := by
  split_ifs with hab
  · rw [List.filter_eq_self]
    intro d hd
    simp [(h.2 d hd).2, hab]
  · rw [List.filter_eq_nil_iff]
    intro d hd
    simp [(h.2 d hd).2, hab]

/-- The VPU devices of an enumeration. -/
theorem enumerate_filter_vpu {t : Tree} {cfg : Config} (hmock : cfg.mock = false)
    (hvpu : (defaultConfig cfg).vpuEnabled = true) :
    (enumerate t cfg).filter (·.type = Consts.typeVPU) =
      discoverVPU t (defaultConfig cfg) (enumeratedSoC t cfg) := by
  obtain ⟨npu, gpu, vpu, rga, heq, hn, hg, hv, hr, rfl, -⟩ := enumerate_parts (t := t) hmock
  rw [heq, List.filter_append, List.filter_append, List.filter_append, hn.filter, hg.filter,
    hv.filter, hr.filter, hvpu]
  simp [Consts.typeNPU, Consts.typeGPU, Consts.typeVPU, Consts.typeRGA]

/-- The RGA devices of an enumeration. -/
theorem enumerate_filter_rga {t : Tree} {cfg : Config} (hmock : cfg.mock = false)
    (hrga : (defaultConfig cfg).rgaEnabled = true) :
    (enumerate t cfg).filter (·.type = Consts.typeRGA) =
      discoverRGA t (defaultConfig cfg) (enumeratedSoC t cfg) := by
  obtain ⟨npu, gpu, vpu, rga, heq, hn, hg, hv, hr, -, rfl⟩ := enumerate_parts (t := t) hmock
  rw [heq, List.filter_append, List.filter_append, List.filter_append, hn.filter, hg.filter,
    hv.filter, hr.filter, hrga]
  simp [Consts.typeNPU, Consts.typeGPU, Consts.typeVPU, Consts.typeRGA]

end RockchipDra.Discovery
