import RockchipDra.Discovery.Names

/-!
# The ordinals of video4linux devices

The nodes of each VPU block, and those of the RGA driver, are numbered from zero in the order of
their indices (`discoverVPU_numbered`, `discoverRGA_numbered`). So the ordinal of a node is the
number of nodes of its block with a smaller index (`mem_discoverVPU`, `mem_discoverRGA`): it depends
neither on nodes of other blocks nor on the indices themselves.

The kernel gives every node an index that is not negative and that no other node has (`Indexed`).
The difference of two such indices does not overflow, so the sort by differences is one by indices.
-/

namespace RockchipDra.Discovery

open Go

/-! ## The nodes of a block in the order of their indices -/

/-- The indices of the nodes are not negative and all different. -/
structure Indexed (nodes : List V4lNode) : Prop where
  nonneg : ∀ n ∈ nodes, 0 ≤ n.index
  nodup : (nodes.map V4lNode.index).Nodup

/-- The nodes of a VPU block. -/
def blockNodes (block : String) (nodes : List V4lNode) : List V4lNode :=
  nodes.filter fun n => (classifyVPU n).any fun c => c.1 = block

/-- The nodes of the RGA driver. -/
def rgaNodes (nodes : List V4lNode) : List V4lNode := nodes.filter fun n => n.driver = Consts.kmdRGA

/-- The number of nodes with a smaller index. -/
def rank (nodes : List V4lNode) (n : V4lNode) : ℕ :=
  nodes.countP fun m => m.index.toInt < n.index.toInt

/-- Nodes in the order of their indices. -/
def Increasing (nodes : List V4lNode) : Prop :=
  (nodes.map fun n => n.index.toInt).Pairwise (· < ·)

theorem map_node_filter_vpuMatches (block : String) (nodes : List V4lNode) :
    ((vpuMatches nodes).filter (·.block = block)).map VpuMatch.node = blockNodes block nodes := by
  unfold vpuMatches blockNodes
  induction nodes with
  | nil => rfl
  | cons n nodes ih =>
    cases hc : classifyVPU n with
    | none => simp [hc, ih]
    | some c => by_cases hb : c.1 = block <;> simp [hc, hb, ih]

/-- A node of a block is classified as one. -/
theorem classifyVPU_of_mem_blockNodes {block : String} {nodes : List V4lNode} {n : V4lNode}
    (h : n ∈ blockNodes block nodes) : ∃ function, classifyVPU n = some (block, function) := by
  obtain ⟨-, hany⟩ := List.mem_filter.mp h
  obtain ⟨c, hc, hblock⟩ := (Option.any_eq_true _ _).mp hany
  refine ⟨c.2, hc.trans ?_⟩
  rw [← of_decide_eq_true hblock]

/-- The order of VPU nodes is that of their blocks and indices. -/
theorem byKey_compareVPU {ms : List VpuMatch} (h : ∀ m ∈ ms, 0 ≤ m.node.index) :
    Slices.ByKey compareVPU (fun m => toLex (m.block, m.node.index.toInt)) ms := by
  intro a ha b hb
  unfold compareVPU
  rw [Prod.Lex.le_iff]
  dsimp only [ofLex_toLex]
  -- Nodes of different blocks are compared by block, those of one block by index.
  split_ifs with hblock
  · rw [Slices.compareStrings_le_zero]
    constructor
    · intro hle
      exact .inl (lt_of_le_of_ne hle hblock)
    · rintro (hlt | ⟨heq, -⟩)
      · exact hlt.le
      · exact absurd heq hblock
  · rw [not_not] at hblock
    rw [Slices.sub_le_zero (h a ha) (h b hb)]
    simp [hblock]

/-- The sorted nodes of one block are in the order of their indices. -/
theorem sorted_block_increasing {nodes : List V4lNode} (h : Indexed nodes) (block : String) :
    (((Slices.sortFunc compareVPU (vpuMatches nodes)).filter (·.block = block)).map
      fun m => m.node.index.toInt).Pairwise (· < ·) := by
  have hmem : ∀ m ∈ vpuMatches nodes, 0 ≤ m.node.index :=
    fun m hm => h.nonneg _ (classifyVPU_of_mem hm).1
  -- The indices are different, and so are the keys that contain them.
  have hindex : ((vpuMatches nodes).map fun m => m.node.index.toInt).Nodup := by
    have hnodes := h.nodup.map_on fun a _ b _ => Int64.toInt_inj.mp
    rw [List.map_map] at hnodes
    have hsub := hnodes.sublist ((List.filter_sublist (p := fun n => (classifyVPU n).isSome)).map _)
    rw [← map_node_vpuMatches, List.map_map] at hsub
    exact hsub
  have hnodup : ((vpuMatches nodes).map fun m => toLex (m.block, m.node.index.toInt)).Nodup := by
    refine List.Nodup.of_map (fun key => (ofLex key).2) ?_
    rw [List.map_map]
    exact hindex
  have hsorted := Slices.sortFunc_increasing (byKey_compareVPU hmem) hnodup
  -- Within one block the order of the keys is that of the indices.
  rw [List.pairwise_map] at hsorted ⊢
  rw [List.pairwise_filter]
  refine hsorted.imp ?_
  intro a b hab ha hb
  rw [Prod.Lex.lt_iff] at hab
  dsimp only [ofLex_toLex] at hab
  simp only [decide_eq_true_eq] at ha hb
  rcases hab with hlt | ⟨-, hlt⟩
  · exact absurd (ha.trans hb.symm) hlt.ne
  · exact hlt

/-! ## The devices of a block -/

/-- The share cap of the VPU devices. -/
def vpuMaxAlloc (cfg : Config) : Int64 :=
  if cfg.vpuMaxAllocations ≤ 0 then Consts.defaultVPUMaxAllocations else cfg.vpuMaxAllocations

/-- The share cap of the RGA devices. -/
def rgaMaxAlloc (cfg : Config) : Int64 :=
  if cfg.rgaMaxAllocations ≤ 0 then Consts.defaultRGAMaxAllocations else cfg.rgaMaxAllocations

/-- The devices of one block are numbered on from the count of the block. -/
theorem filter_vpuDevices (t : Tree) (soc : String) (maxAlloc : Int64) (block : String)
    (counts : Std.ExtTreeMap String ℕ) (ms : List VpuMatch) :
    (vpuDevices t soc maxAlloc counts ms).filter (·.block = block) =
      ((ms.filter (·.block = block)).zipIdx (counts.getD block 0)).map
        fun p => vpuDevice t soc maxAlloc p.1 p.2 := by
  induction ms generalizing counts with
  | nil => rfl
  | cons m ms ih =>
    have hdevice : ∀ n, (vpuDevice t soc maxAlloc m n).block = m.block := by simp [vpuDevice]
    rw [vpuDevices, List.filter_cons, List.filter_cons, ih, hdevice]
    -- A device of this block takes the next ordinal; one of another block leaves the count.
    by_cases hblock : m.block = block
    · rw [hblock, Std.ExtTreeMap.getD_insert_self]
      simp
    · rw [Std.ExtTreeMap.getD_insert]
      simp [hblock]

/-- The devices of one block: its nodes in the order of their indices, numbered from zero. -/
theorem filter_discoverVPU {t : Tree} {cfg : Config} (h : Indexed (discoverV4L t cfg))
    (soc : String) (block : String) :
    ∃ ms : List VpuMatch,
      (∀ m ∈ ms, m.block = block ∧ classifyVPU m.node = some (m.block, m.function)) ∧
      (ms.map VpuMatch.node).Perm (blockNodes block (discoverV4L t cfg)) ∧
      Increasing (ms.map VpuMatch.node) ∧
      (discoverVPU t cfg soc).filter (·.block = block) =
        ms.zipIdx.map fun p => vpuDevice t soc (vpuMaxAlloc cfg) p.1 p.2 := by
  refine ⟨(Slices.sortFunc compareVPU (vpuMatches (discoverV4L t cfg))).filter (·.block = block),
    ?_, ?_, ?_, ?_⟩
  · intro m hm
    obtain ⟨hm, hblock⟩ := List.mem_filter.mp hm
    rw [(Slices.sortFunc_perm _ _).mem_iff] at hm
    exact ⟨of_decide_eq_true hblock, (classifyVPU_of_mem hm).2⟩
  · rw [← map_node_filter_vpuMatches]
    exact ((Slices.sortFunc_perm _ _).filter _).map _
  · unfold Increasing
    rw [List.map_map]
    exact sorted_block_increasing h block
  · unfold discoverVPU
    dsimp only
    rw [filter_vpuDevices, Std.ExtTreeMap.getD_empty]
    rfl

/-- The RGA devices: the nodes in the order of their indices, numbered from zero. -/
theorem discoverRGA_eq {t : Tree} {cfg : Config} (h : Indexed (discoverV4L t cfg)) (soc : String) :
    ∃ ns : List V4lNode, ns.Perm (rgaNodes (discoverV4L t cfg)) ∧ Increasing ns ∧
      discoverRGA t cfg soc = ns.zipIdx.map fun p => rgaDevice t soc (rgaMaxAlloc cfg) p.1 p.2 := by
  refine ⟨_, Slices.sortFunc_perm _ _, ?_, rfl⟩
  have hsub : (rgaNodes (discoverV4L t cfg)).Sublist (discoverV4L t cfg) := List.filter_sublist
  refine Slices.sortFunc_increasing (Slices.byKey_sub V4lNode.index fun n hn => ?_) ?_
  · exact h.nonneg n (hsub.subset hn)
  · have hnodup := (h.nodup.sublist (hsub.map _)).map_on fun a _ b _ => Int64.toInt_inj.mp
    rw [List.map_map] at hnodup
    exact hnodup

/-! ## Names without gaps -/

/-- The devices are the nodes in the order of their indices, named from the ordinal zero on. -/
def Numbered (nodes : List V4lNode) (name : ℕ → String) (devices : List Device) : Prop :=
  ∃ ns : List V4lNode, ns.Perm nodes ∧ Increasing ns ∧
    devices.map (fun d => (d.name, d.deviceNode)) =
      ns.zipIdx.map fun p => (name p.2, p.1.deviceNode)

theorem discoverVPU_numbered {t : Tree} {cfg : Config} (h : Indexed (discoverV4L t cfg))
    (soc block : String) :
    Numbered (blockNodes block (discoverV4L t cfg)) (fun n => "vpu-" ++ block ++ "-" ++ toString n)
      ((discoverVPU t cfg soc).filter (·.block = block)) := by
  obtain ⟨ms, hclass, hperm, hincreasing, hdevices⟩ := filter_discoverVPU h soc block
  refine ⟨_, hperm, hincreasing, ?_⟩
  rw [hdevices, List.map_map, List.zipIdx_map, List.map_map]
  refine List.map_congr_left fun p hp => ?_
  simp [vpuDevice, (hclass p.1 (List.fst_mem_of_mem_zipIdx hp)).1]

theorem discoverRGA_numbered {t : Tree} {cfg : Config} (h : Indexed (discoverV4L t cfg))
    (soc : String) :
    Numbered (rgaNodes (discoverV4L t cfg)) (fun n => "rga-" ++ toString n)
      (discoverRGA t cfg soc) := by
  obtain ⟨ns, hperm, hincreasing, hdevices⟩ := discoverRGA_eq h soc
  refine ⟨ns, hperm, hincreasing, ?_⟩
  rw [hdevices, List.map_map]
  simp [Function.comp_def, rgaDevice]

/-- **Names are unique and without gaps.** Outside mock mode, where the indices of the video4linux
entries are not negative and all different, the devices of an enumeration have different names and
different nodes. The VPU devices are the entries that are classified as a VPU, and the devices of
each block are its entries in the order of their indices, named from zero on. The same holds for
RGA. -/
theorem enumerate_names (t : Tree) (cfg : Config) (hmock : cfg.mock = false)
    (hindexed : Indexed (discoverV4L t (defaultConfig cfg))) :
    ((enumerate t cfg).map Device.name).Nodup ∧ ((enumerate t cfg).map Device.deviceNode).Nodup ∧
    ((discoverV4L t (defaultConfig cfg)).map V4lNode.deviceNode).Nodup ∧
    ((defaultConfig cfg).vpuEnabled = true →
      (((enumerate t cfg).filter (·.type = Consts.typeVPU)).map Device.deviceNode).Perm
        (((discoverV4L t (defaultConfig cfg)).filter fun n => (classifyVPU n).isSome).map
          V4lNode.deviceNode) ∧
      ∀ block, Numbered (blockNodes block (discoverV4L t (defaultConfig cfg)))
        (fun n => "vpu-" ++ block ++ "-" ++ toString n)
        (((enumerate t cfg).filter (·.type = Consts.typeVPU)).filter (·.block = block))) ∧
    ((defaultConfig cfg).rgaEnabled = true →
      Numbered (rgaNodes (discoverV4L t (defaultConfig cfg))) (fun n => "rga-" ++ toString n)
        ((enumerate t cfg).filter (·.type = Consts.typeRGA))) := by
  refine ⟨enumerate_names_nodup hmock, enumerate_nodes_nodup t cfg, discoverV4L_nodup _ _, ?_, ?_⟩
  · intro hvpu
    rw [enumerate_filter_vpu hmock hvpu]
    exact ⟨discoverVPU_nodes _ _ _, fun block => discoverVPU_numbered hindexed _ block⟩
  · intro hrga
    rw [enumerate_filter_rga hmock hrga]
    exact discoverRGA_numbered hindexed _

/-- A tree with two decoders. -/
def boardTree : Tree :=
  Tree.ofLists [("/sys/class/video4linux", ["video0", "video1"])]
    [("/sys/class/video4linux/video0/uevent", "DRIVER=rkvdec\n"),
      ("/sys/class/video4linux/video1/uevent", "DRIVER=rkvdec\n")]
    [] [] (by decide) (by decide)

/-- Its video4linux entries. -/
def boardNodes : List V4lNode :=
  [⟨0, "rkvdec", "", "", "/dev/video0"⟩, ⟨1, "rkvdec", "", "", "/dev/video1"⟩]

theorem discoverV4L_boardTree : discoverV4L boardTree (defaultConfig {}) = boardNodes := by
  decide +kernel

theorem boardNodes_indexed : Indexed boardNodes := ⟨by decide, by decide⟩

/-- The decoders of that board are numbered in the order of their indices. -/
theorem enumerate_names_board : Numbered (blockNodes Consts.blockRkvdec boardNodes)
    (fun n => "vpu-rkvdec-" ++ toString n)
    (((enumerate boardTree {}).filter (·.type = Consts.typeVPU)).filter
      (·.block = Consts.blockRkvdec)) := by
  rw [← discoverV4L_boardTree]
  refine ((enumerate_names boardTree {} rfl ?_).2.2.2.1 (by decide)).2 Consts.blockRkvdec
  rw [discoverV4L_boardTree]
  exact boardNodes_indexed

/-! ## Ordinals as ranks -/

/-- The device of a VPU node has the rank of the node in its block as its ordinal. -/
theorem mem_discoverVPU {t : Tree} {cfg : Config} (h : Indexed (discoverV4L t cfg)) (soc : String)
    {n : V4lNode} (hn : n ∈ discoverV4L t cfg) {block function : String}
    (hclass : classifyVPU n = some (block, function)) :
    vpuDevice t soc (vpuMaxAlloc cfg) ⟨n, block, function⟩
      (rank (blockNodes block (discoverV4L t cfg)) n) ∈ discoverVPU t cfg soc := by
  obtain ⟨ms, hms, hperm, hincreasing, hdevices⟩ := filter_discoverVPU h soc block
  have hnode : n ∈ blockNodes block (discoverV4L t cfg) := by
    refine List.mem_filter.mpr ⟨hn, ?_⟩
    simp [hclass]
  -- The node has an entry in the sorted block, at the position of its rank.
  obtain ⟨m, hm, rfl⟩ := List.mem_map.mp (hperm.mem_iff.mpr hnode)
  obtain ⟨hblock, hm'⟩ := hms m hm
  obtain ⟨-, hfunction⟩ : m.block = block ∧ m.function = function := by
    rw [hclass] at hm'
    simpa [eq_comm] using hm'
  have hmem :
      vpuDevice t soc (vpuMaxAlloc cfg) m (rank (blockNodes block (discoverV4L t cfg)) m.node) ∈
        (discoverVPU t cfg soc).filter (·.block = block) := by
    rw [hdevices, List.mem_map]
    refine ⟨(m, rank (blockNodes block (discoverV4L t cfg)) m.node), ?_, rfl⟩
    unfold Increasing at hincreasing
    rw [List.map_map] at hincreasing
    refine (Slices.mem_zipIdx_iff_countP hincreasing _).mpr ⟨hm, ?_⟩
    change rank _ _ = _
    rw [rank, ← hperm.countP_eq, List.countP_map]
    rfl
  rw [← hblock, ← hfunction] at *
  exact List.mem_of_mem_filter hmem

/-- The device of an RGA node has the rank of the node as its ordinal. -/
theorem mem_discoverRGA {t : Tree} {cfg : Config} (h : Indexed (discoverV4L t cfg)) (soc : String)
    {n : V4lNode} (hn : n ∈ rgaNodes (discoverV4L t cfg)) :
    rgaDevice t soc (rgaMaxAlloc cfg) n (rank (rgaNodes (discoverV4L t cfg)) n) ∈
      discoverRGA t cfg soc := by
  obtain ⟨ns, hperm, hincreasing, hdevices⟩ := discoverRGA_eq h soc
  rw [hdevices, List.mem_map]
  refine ⟨(n, _), (Slices.mem_zipIdx_iff_countP hincreasing _).mpr ⟨hperm.mem_iff.mpr hn, ?_⟩, rfl⟩
  exact (hperm.countP_eq _).symm

/-! ## Names across trees -/

/-- Nodes of two trees that match one to one, with the same texts and in the same order of
indices. -/
structure Matched (nodes nodes' : List V4lNode) (pairs : List (V4lNode × V4lNode)) : Prop where
  left : (pairs.map Prod.fst).Perm nodes
  right : (pairs.map Prod.snd).Perm nodes'
  driver : ∀ p ∈ pairs, p.1.driver = p.2.driver
  cardName : ∀ p ∈ pairs, p.1.cardName = p.2.cardName
  compatible : ∀ p ∈ pairs, p.1.compatible = p.2.compatible
  order : ∀ p ∈ pairs, ∀ q ∈ pairs, p.1.index < q.1.index ↔ p.2.index < q.2.index

/-- The device `d` is the only one on the node `n`. -/
structure Assigned (devices : List Device) (n : V4lNode) (d : Device) : Prop where
  mem : d ∈ devices
  node : d.deviceNode = n.deviceNode
  unique : ∀ e ∈ devices, e.deviceNode = n.deviceNode → e = d

/-- Matched nodes get devices with the same name, block, function, and model. -/
def SameLabels (pairs : List (V4lNode × V4lNode)) (devices devices' : List Device) : Prop :=
  ∀ p ∈ pairs, ∃ d d', Assigned devices p.1 d ∧ Assigned devices' p.2 d' ∧
    d.name = d'.name ∧ d.block = d'.block ∧ d.function = d'.function ∧ d.model = d'.model

section Trees

variable {nodes nodes' : List V4lNode} {pairs : List (V4lNode × V4lNode)}

/-- Matched nodes have the same rank. -/
theorem Matched.rank_eq (h : Matched nodes nodes' pairs) {p : V4lNode × V4lNode} (hp : p ∈ pairs) :
    rank nodes p.1 = rank nodes' p.2 := by
  unfold rank
  rw [← h.left.countP_eq, ← h.right.countP_eq, List.countP_map, List.countP_map]
  refine List.countP_congr fun q hq => ?_
  simpa [Int64.lt_iff_toInt_lt] using h.order q hq p hp

/-- A node is classified by its texts. -/
theorem classifyVPU_congr {n n' : V4lNode} (hdriver : n.driver = n'.driver)
    (hcard : n.cardName = n'.cardName) (hcompatible : n.compatible = n'.compatible) :
    classifyVPU n = classifyVPU n' := by
  unfold classifyVPU
  rw [hdriver, hcard, hcompatible]

/-- Where all devices have different nodes, a device is assigned to its node. -/
theorem Assigned.of_mem {devices : List Device} (hnodup : (devices.map Device.deviceNode).Nodup)
    {d : Device} (hd : d ∈ devices) {n : V4lNode} (hnode : d.deviceNode = n.deviceNode) :
    Assigned devices n d :=
  ⟨hd, hnode, fun _ he hnode' => List.inj_on_of_nodup_map hnodup he hd (hnode'.trans hnode.symm)⟩

theorem discoverVPU_nodes_nodup (t : Tree) (cfg : Config) (soc : String) :
    ((discoverVPU t cfg soc).map Device.deviceNode).Nodup := by
  rw [(discoverVPU_nodes t cfg soc).nodup_iff]
  exact (discoverV4L_nodup t cfg).sublist (List.filter_sublist.map _)

theorem discoverRGA_nodes_nodup (t : Tree) (cfg : Config) (soc : String) :
    ((discoverRGA t cfg soc).map Device.deviceNode).Nodup := by
  rw [(discoverRGA_nodes t cfg soc).nodup_iff]
  exact (discoverV4L_nodup t cfg).sublist (List.filter_sublist.map _)

end Trees

/-- **Names are stable.** For two trees whose entries of one VPU block, or of RGA, match one to one
with the same texts and in the same order of indices, the matched entries get the same names,
blocks, functions, and models, whatever the other entries and the indices are. -/
theorem block_names_stable (t t' : Tree) (cfg cfg' : Config) (soc soc' : String)
    (h : Indexed (discoverV4L t cfg)) (h' : Indexed (discoverV4L t' cfg')) :
    (∀ block pairs, Matched (blockNodes block (discoverV4L t cfg))
      (blockNodes block (discoverV4L t' cfg')) pairs →
      SameLabels pairs (discoverVPU t cfg soc) (discoverVPU t' cfg' soc')) ∧
    (∀ pairs, Matched (rgaNodes (discoverV4L t cfg)) (rgaNodes (discoverV4L t' cfg')) pairs →
      SameLabels pairs (discoverRGA t cfg soc) (discoverRGA t' cfg' soc')) := by
  constructor
  · intro block pairs hmatched p hp
    have hleft : p.1 ∈ blockNodes block (discoverV4L t cfg) :=
      hmatched.left.mem_iff.mp (List.mem_map_of_mem hp)
    have hright : p.2 ∈ blockNodes block (discoverV4L t' cfg') :=
      hmatched.right.mem_iff.mp (List.mem_map_of_mem hp)
    obtain ⟨function, hclass⟩ := classifyVPU_of_mem_blockNodes hleft
    have hclass' : classifyVPU p.2 = some (block, function) := by
      rw [← hclass]
      exact (classifyVPU_congr (hmatched.driver p hp) (hmatched.cardName p hp)
        (hmatched.compatible p hp)).symm
    -- Both nodes have a device with their rank as its ordinal, and the ranks are equal.
    have hd := mem_discoverVPU h soc (List.mem_of_mem_filter hleft) hclass
    have hd' := mem_discoverVPU h' soc' (List.mem_of_mem_filter hright) hclass'
    rw [← hmatched.rank_eq hp] at hd'
    refine ⟨_, _, .of_mem (discoverVPU_nodes_nodup t cfg soc) hd (by simp [vpuDevice]),
      .of_mem (discoverVPU_nodes_nodup t' cfg' soc') hd' (by simp [vpuDevice]), ?_⟩
    simp [vpuDevice, hmatched.compatible p hp]
  · intro pairs hmatched p hp
    have hd := mem_discoverRGA h soc (hmatched.left.mem_iff.mp (List.mem_map_of_mem hp))
    have hd' := mem_discoverRGA h' soc' (hmatched.right.mem_iff.mp (List.mem_map_of_mem hp))
    rw [← hmatched.rank_eq hp] at hd'
    refine ⟨_, _, .of_mem (discoverRGA_nodes_nodup t cfg soc) hd (by simp [rgaDevice]),
      .of_mem (discoverRGA_nodes_nodup t' cfg' soc') hd' (by simp [rgaDevice]), ?_⟩
    simp [rgaDevice, hmatched.compatible p hp]

/-- The same board after its decoders got other indices. They are listed in the other order. -/
def renumberedTree : Tree :=
  Tree.ofLists [("/sys/class/video4linux", ["video10", "video9"])]
    [("/sys/class/video4linux/video10/uevent", "DRIVER=rkvdec\n"),
      ("/sys/class/video4linux/video9/uevent", "DRIVER=rkvdec\n")]
    [] [] (by decide) (by decide)

/-- Its video4linux entries. -/
def renumberedNodes : List V4lNode :=
  [⟨10, "rkvdec", "", "", "/dev/video10"⟩, ⟨9, "rkvdec", "", "", "/dev/video9"⟩]

theorem discoverV4L_renumberedTree :
    discoverV4L renumberedTree (defaultConfig {}) = renumberedNodes := by
  decide +kernel

/-- The decoders of the two trees, in the order of their indices. -/
def matchedDecoders : List (V4lNode × V4lNode) :=
  [(⟨0, "rkvdec", "", "", "/dev/video0"⟩, ⟨9, "rkvdec", "", "", "/dev/video9"⟩),
    (⟨1, "rkvdec", "", "", "/dev/video1"⟩, ⟨10, "rkvdec", "", "", "/dev/video10"⟩)]

/-- The decoders keep their names. -/
theorem block_names_stable_renumbered : SameLabels matchedDecoders
    (discoverVPU boardTree (defaultConfig {}) "")
    (discoverVPU renumberedTree (defaultConfig {}) "") := by
  have h := block_names_stable boardTree renumberedTree (defaultConfig {}) (defaultConfig {}) "" ""
  rw [discoverV4L_boardTree, discoverV4L_renumberedTree] at h
  refine (h boardNodes_indexed ⟨by decide, by decide⟩).1 Consts.blockRkvdec matchedDecoders ?_
  constructor
  all_goals decide

end RockchipDra.Discovery
