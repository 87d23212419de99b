import RockchipDra.Discovery.Enumerate
import RockchipDra.Plugin.World

/-!
# Runs over a sysfs tree, and a host to run on

`Op.Discovers` restricts reconciles to what `Enumerate` finds in some sysfs tree, and
`Event.isSmooth` leaves out I/O errors and crashes. The rest of the file is a small host with two
decoders, on which runs can be evaluated.
-/

namespace RockchipDra.Plugin

open Go Discovery Effect

/-! ## Runs over a changing sysfs tree -/

/-- A reconcile looks at what `Enumerate` finds in some tree, with the configuration of its
process. -/
def Op.Discovers (s : DeviceState) : Op → Prop
  | .prepare _ _ => True
  | .unprepare _ => True
  | .reconcile _ found => ∃ t, found = enumerate t s.flags.discCfg

/-- No I/O error and no crash. -/
def Event.isSmooth : Event → Bool
  | .command .none => true
  | .command _ => false
  | .crash => false
  | _ => true

/-! ## A host to run operations on -/

/-- The file of a spec as the CDI library names it: an underscore takes the place of each slash of
the identifier, and a name without an extension of its own gets one. -/
def specFile (vendor class_ id : String) : String :=
  let name := vendor ++ "-" ++ class_ ++ "_" ++ Strings.replaceAll id '/' '_'
  if ".yaml".toList <:+ name.toList ∨ ".json".toList <:+ name.toList then name
  else name ++ ".yaml"

/-- A name that ends in a plain identifier after an underscore has no extension of its own. -/
theorem not_suffix_of_plain {front ext id : List Char} (hext : '_' ∉ ext) (hid : ¬ext <:+ id) :
    ¬ext <:+ front ++ '_' :: id := by
  intro h
  rcases List.suffix_or_suffix_of_suffix h (List.suffix_append front ('_' :: id)) with h | h
  · rcases List.suffix_cons_iff.mp h with rfl | h
    · exact hext List.mem_cons_self
    · exact hid h
  · exact hext (h.subset List.mem_cons_self)

/-- The file of a plain identifier. -/
theorem specFile_of_plain (vendor class_ : String) {id : String} (h : PlainID id) :
    specFile vendor class_ id = vendor ++ "-" ++ class_ ++ "_" ++ id ++ ".yaml" := by
  have hreplace : Strings.replaceAll id '/' '_' = id := by
    have hmap : id.toList.map (fun c => if c = '/' then '_' else c) = id.toList := by
      rw [List.map_congr_left (g := fun c => c), List.map_id_fun']
      · rfl
      · intro c hc
        refine if_neg ?_
        rintro rfl
        exact h.slash hc
    rw [Strings.replaceAll, hmap, String.ofList_toList]
  have hname : (vendor ++ "-" ++ class_ ++ "_" ++ id).toList =
      (vendor ++ "-" ++ class_).toList ++ '_' :: id.toList := by
    simp
  unfold specFile
  rw [hreplace]
  refine if_neg ?_
  rw [hname]
  exact not_or.mpr ⟨not_suffix_of_plain (by decide) h.yaml, not_suffix_of_plain (by decide) h.json⟩

/-- Third parties that accept every spec and print of the resources the names and taints. -/
def plainExternal : External where
  marshalResources r := .ok (r.devices.flatMap fun d =>
    d.name.toList.map (fun c => UInt8.ofNat c.toNat) ++ [UInt8.ofNat d.taints.length])
  minimumRequiredVersion _ := .ok "0.5.0"
  transientSpecName := specFile
  refusesSpec _ := none

/-- The names of the CDI library keep plain identifiers apart. -/
theorem plainExternal_namesApart : plainExternal.NamesApart := by
  intro vendor class_ u hu v hv h
  change specFile vendor class_ u = specFile vendor class_ v at h
  rw [specFile_of_plain vendor class_ hu, specFile_of_plain vendor class_ hv] at h
  simpa using h

/-- A host on which the given device nodes exist, at a time after the zero time. -/
def hostEnv (now : Time) (nodes : List String) : Env where
  stat path := if path ∈ nodes then some {} else none
  now := now + 1
  now_ne_zero := Nat.succ_ne_zero now
  order := MapOrder.increasing Loop

/-- The flags of the plugin on that host. -/
def hostFlags : Flags := { driverName := "dra.rockchip.com", nodeName := "node" }

/-- The device of a name on a node. -/
def hostDevice (name node : String) : Device := { name := name, deviceNode := node }

/-- A claim that is allocated one device of that host. -/
def hostClaim (uid : UID) (device : String) : ResourceClaim :=
  { uid := uid
    allocation := some
      [{ request := "r", driver := hostFlags.driverName, pool := hostFlags.nodeName,
         device := device }] }

/-! ## A host with two decoders -/

/-- A decoder of the host. -/
def hostDecoder (name node : String) : Device :=
  { name := name, type := Consts.typeVPU, vendor := Consts.vendorRockchip, kmd := Consts.kmdRkvdec
    deviceNode := node, maxAllocations := 1, function := Consts.functionDecode
    block := Consts.blockRkvdec }

/-- The sysfs tree with both decoders. -/
def bothTree : Tree :=
  Tree.ofLists [("/sys/class/video4linux", ["video1", "video2"])]
    [("/sys/class/video4linux/video1/uevent", "DRIVER=rkvdec\n"),
      ("/sys/class/video4linux/video2/uevent", "DRIVER=rkvdec\n")]
    [] [("/dev/video1", {}), ("/dev/video2", {})] (by decide) (by decide)

/-- The sysfs tree after the first decoder is unbound from its driver. -/
def secondTree : Tree :=
  Tree.ofLists [("/sys/class/video4linux", ["video2"])]
    [("/sys/class/video4linux/video2/uevent", "DRIVER=rkvdec\n")]
    [] [("/dev/video2", {})] (by decide) (by decide)

/-- What is found while both decoders are bound. -/
def bothFound : List Device :=
  [hostDecoder "vpu-rkvdec-0" "/dev/video1", hostDecoder "vpu-rkvdec-1" "/dev/video2"]

/-- What is found after the first decoder is unbound. -/
def secondFound : List Device := [hostDecoder "vpu-rkvdec-0" "/dev/video2"]

theorem enumerate_bothTree : enumerate bothTree hostFlags.discCfg = bothFound := by decide +kernel

theorem enumerate_secondTree : enumerate secondTree hostFlags.discCfg = secondFound := by
  decide +kernel

/-- A reconcile of the host's process that finds one of the two. -/
def Op.findsDecoders (s : DeviceState) : Op → Bool
  | .prepare _ _ => true
  | .unprepare _ => true
  | .reconcile _ found =>
    s.flags.discCfg = hostFlags.discCfg ∧ (found = bothFound ∨ found = secondFound)

/-- Such a reconcile looks at what `Enumerate` finds. -/
theorem Op.discovers_of_findsDecoders {s : DeviceState} {op : Op} (h : op.findsDecoders s = true) :
    op.Discovers s := by
  cases op with
  | prepare env claim => trivial
  | unprepare uid => trivial
  | reconcile env found =>
    simp only [Op.findsDecoders, decide_eq_true_eq] at h
    obtain ⟨hcfg, rfl | rfl⟩ := h
    · exact ⟨bothTree, by rw [hcfg, enumerate_bothTree]⟩
    · exact ⟨secondTree, by rw [hcfg, enumerate_secondTree]⟩

/-- The nodes of both decoders. -/
def bothNodes : List String := ["/dev/video1", "/dev/video2"]

/-- A prepare of a claim for one of the decoders. -/
def hostPrepare : Op := .prepare (hostEnv 1 bothNodes) (hostClaim "u" "vpu-rkvdec-0")

theorem hostPrepare_plain : hostPrepare.Plain := by
  rintro _ ⟨⟩
  decide

/-- What this prepare returns. -/
def hostPrepared : PreparedDevice :=
  { requestNames := ["r"]
    poolName := "node"
    deviceName := "vpu-rkvdec-0"
    cdiDeviceIDs := ["k8s.dra.rockchip.com/dra=u-vpu-rkvdec-0"]
    shareID := none
    discovered := hostDecoder "vpu-rkvdec-0" "/dev/video1" }

/-- The first operation of the process, with both decoders bound and the given nodes present. -/
def bootDecoders (nodes : List String) : List Event :=
  [.boot hostFlags (hostEnv 0 nodes) bothFound, .command .none, .command .none, .finish]

/-- A claim is prepared with one of the decoders, while both nodes are present. -/
def prepareDecoder (uid : UID) (name : String) : List Event :=
  [.start (.prepare (hostEnv 1 bothNodes) (hostClaim uid name)),
    .command .none, .command .none, .command .none, .command .none, .command .none, .finish]

/-- A reconcile that finds the given devices, up to its return. -/
def reconcileDecoders (nodes : List String) (found : List Device) : List Event :=
  [.start (.reconcile (hostEnv 2 nodes) found), .command .none, .command .none]

/-- Events whose reconciles find one of the two. -/
def findsDecoders (es : List Event) : Prop :=
  Along (World.step plainExternal)
    (fun w e _ => (w.starts e).all (fun p => p.2.findsDecoders p.1) = true) {} es

instance (es : List Event) : Decidable (findsDecoders es) :=
  inferInstanceAs (Decidable (Along _ _ _ _))

/-- Every reconcile of such events looks at what `Enumerate` finds. -/
theorem discovers_of_findsDecoders {es : List Event} (h : findsDecoders es) :
    Along (World.step plainExternal) (World.Starts fun s op _ => op.Discovers s) {} es := by
  refine Along.mono (fun w e _ _ h s op hop => ?_) h
  rw [hop, Option.all_some] at h
  exact Op.discovers_of_findsDecoders h

end RockchipDra.Plugin
