import PelionBorderRouter.Config
import PelionBorderRouter.Lib.Run

/-!
# PelionBorderRouter.ControlValue

The mesh interface control: the 16-byte buffer `mesh_iface_control_value`
and the KVStore record that outlives a reboot.  Two pieces of `main_app.cpp`
write them:

* `main` at boot (`readDefaultMeshIfaceControl`): zeroed buffer, compiled
  default, `kv_get` over it, and the record written back with the size just
  read;
* `mesh_iface_control_cb` on a PUT (`MeshControl.update`): `strcpy` or
  `strncpy`, chosen by comparing lengths, and the record written with the
  size of the payload.

`kv_get` copies `min(buffer size, record size)` bytes and reports that
number; failing, it touches neither its buffer nor the size.  `kv_set`
stores exactly the bytes it is given, or nothing when it fails.
-/

namespace PelionBorderRouter

/-! ## KVStore -/

/-- What a KVStore call returns. -/
inductive KvStatus where
  | success
  | itemNotFound
  | failure
deriving DecidableEq, Repr

/-- `kv_get` of a record into `buffer`; `fails` is a read that goes wrong for
any reason but a missing record. -/
def kvGet {n : Nat} (record : Option (List UInt8)) (fails : Bool) (buffer : CharBuf n)
    (bufferSize actualSize : Nat) : KvStatus × CharBuf n × Nat :=
  if fails then (.failure, buffer, actualSize)
  else
    match record with
    | none => (.itemNotFound, buffer, actualSize)
    | some r => (.success, buffer.store (r.take bufferSize), min bufferSize r.length)

/-- `kv_set` of `data` over a record. -/
def kvSet (record : Option (List UInt8)) (fails : Bool) (data : List UInt8) :
    KvStatus × Option (List UInt8) :=
  if fails then (.failure, record) else (.success, some data)

/-! ## the two writers -/

/-- The mesh interface control of a running device: `mesh_iface_control_value`
and the record under `app_mesh_control_kv_key`. -/
structure MeshControl where
  value : CharBuf meshIfaceCtrlValMaxSize
  record : Option (List UInt8)
deriving DecidableEq, Repr

/-- How the KVStore answers a boot. -/
structure BootIo where
  kvGetFails : Bool
  kvSetFails : Bool
deriving DecidableEq, Repr

/-- What surrounds a PUT: the memory behind the buffer when `kv_set` reads
from it, and how the KVStore answers. -/
structure PutIo where
  past : Nat → UInt8
  kvSetFails : Bool

/-- The buffer once the compiled default is copied into its zeroes. -/
def defaultValue (cfg : Config) : CharBuf meshIfaceCtrlValMaxSize :=
  (CharBuf.zeros meshIfaceCtrlValMaxSize).strncpy cfg.meshIfaceStartControl
    cfg.meshIfaceStartControl.strlen

/-- `main`, "Read default Mesh Interface Control".  The status of `kv_get`
is not looked at, and `kv_set` gets the size it reported. -/
def readDefaultMeshIfaceControl (cfg : Config) (io : BootIo) (record : Option (List UInt8)) :
    MeshControl :=
  let (_, value, actualSize) :=
    kvGet record io.kvGetFails (defaultValue cfg) meshIfaceCtrlValMaxSize 0
  let (_, record) := kvSet record io.kvSetFails (value.bytes.take actualSize)
  ⟨value, record⟩

/-- The bytes `mesh_iface_control_cb` stores into `mesh_iface_control_value`,
from index `0` on. -/
def controlBytes (cval : CStr) : List UInt8 :=
  if cval.strlen ≤ meshIfaceCtrlValMaxSize then strcpyBytes cval
  else strncpyBytes cval (meshIfaceCtrlValMaxSize - 1)

/-- `mesh_iface_control_cb` up to its decision: copy the payload, write the
record.  A `NULL` payload is refused.  Stored bytes that fall behind the
buffer are what `kv_set` then reads there. -/
def MeshControl.update (c : MeshControl) (payload : Option CStr) (io : PutIo) : MeshControl :=
  match payload with
  | none => c
  | some cval =>
      let value := c.value.store (controlBytes cval)
      let spill := (controlBytes cval).drop meshIfaceCtrlValMaxSize
      let past := fun i => spill[i]?.getD (io.past i)
      let (_, record) := kvSet c.record io.kvSetFails (value.readBytes past (cval.strlen + 1))
      ⟨value, record⟩

/-- The comparison both callbacks make: `strncmp` with `MESH_IFACE_CTRL_BLOCK`
over its length says equal. -/
def controlBlocks (value : CharBuf meshIfaceCtrlValMaxSize) : Bool :=
  strncmp value.bytes meshIfaceCtrlBlock.chars meshIfaceCtrlBlock.strlen == 0

/-- Reboots and PUTs, in the order they happen. -/
inductive ControlEvent where
  | boot (io : BootIo)
  | put (payload : Option CStr) (io : PutIo)

/-- What one event does to the control.  A reboot loses the buffer and keeps
the record. -/
def MeshControl.next (cfg : Config) (c : MeshControl) : ControlEvent → MeshControl
  | .boot io => readDefaultMeshIfaceControl cfg io c.record
  | .put payload io => c.update payload io

/-- The life of a device: it leaves the factory without a record, boots, and
then sees reboots and PUTs. -/
def controlMachine (cfg : Config) (io : BootIo) : Machine MeshControl ControlEvent :=
  .ofTotal (readDefaultMeshIfaceControl cfg io none) (MeshControl.next cfg)

/-! ## what a boot leaves -/

/-- The default reads back from the buffer it was copied into. -/
theorem cstr?_defaultValue (cfg : Config) :
    (defaultValue cfg).cstr? = some cfg.meshIfaceStartControl := by
  have hzero : (CharBuf.zeros meshIfaceCtrlValMaxSize).bytes[cfg.meshIfaceStartControl.strlen]? =
      some 0 :=
    List.getElem?_replicate_of_lt cfg.meshIfaceStartControl_fits
  rw [defaultValue, CharBuf.cstr?_strncpy _ _ hzero, CStr.cut_of_le (Nat.le_refl _)]

/-- The default leaves the last byte of the buffer zero. -/
theorem getElem?_defaultValue_last (cfg : Config) :
    (defaultValue cfg).bytes[meshIfaceCtrlValMaxSize - 1]? = some 0 := by
  have hfits := cfg.meshIfaceStartControl_fits
  rw [defaultValue, CharBuf.strncpy, CharBuf.getElem?_store_of_le]
  · exact List.getElem?_replicate_of_lt (by decide)
  · rw [length_strncpyBytes]
    omega

/-- A boot that reads nothing runs on the default, and writes back an empty
record. -/
theorem boot_of_no_read (cfg : Config) (io : BootIo) {record : Option (List UInt8)}
    (h : io.kvGetFails = true ∨ record = none) :
    readDefaultMeshIfaceControl cfg io record =
      ⟨defaultValue cfg, if io.kvSetFails then record else some []⟩ := by
  have hread : (kvGet record io.kvGetFails (defaultValue cfg) meshIfaceCtrlValMaxSize 0).2 =
      (defaultValue cfg, 0) := by
    cases h with
    | inl hget => simp [kvGet, hget]
    | inr hnone => cases hget : io.kvGetFails <;> simp [kvGet, hnone]
  unfold readDefaultMeshIfaceControl
  cases hset : io.kvSetFails <;> simp [hread, kvSet]

/-- A boot that reads a record lays its first 16 bytes over the default, and
writes those back. -/
theorem boot_of_read (cfg : Config) {io : BootIo} {r : List UInt8} (h : io.kvGetFails = false) :
    readDefaultMeshIfaceControl cfg io (some r) =
      ⟨(defaultValue cfg).store (r.take meshIfaceCtrlValMaxSize),
        if io.kvSetFails then some r else some (r.take meshIfaceCtrlValMaxSize)⟩ := by
  have hle : (r.take meshIfaceCtrlValMaxSize).length ≤ meshIfaceCtrlValMaxSize :=
    List.length_take_le _ _
  have htake : ((defaultValue cfg).store (r.take meshIfaceCtrlValMaxSize)).bytes.take
      (min meshIfaceCtrlValMaxSize r.length) = r.take meshIfaceCtrlValMaxSize := by
    rw [CharBuf.bytes_store_of_le _ hle]
    exact List.take_left' List.length_take
  cases hset : io.kvSetFails <;> simp [readDefaultMeshIfaceControl, kvGet, kvSet, h, hset, htake]

/-! ## what a PUT leaves -/

@[simp] theorem update_none (c : MeshControl) (io : PutIo) : c.update none io = c := rfl

@[simp] theorem value_update_some (c : MeshControl) (cval : CStr) (io : PutIo) :
    (c.update (some cval) io).value = c.value.store (controlBytes cval) := rfl

theorem controlBytes_of_le {cval : CStr} (h : cval.strlen ≤ meshIfaceCtrlValMaxSize) :
    controlBytes cval = cval.toBytes := if_pos h

theorem controlBytes_of_gt {cval : CStr} (h : meshIfaceCtrlValMaxSize < cval.strlen) :
    controlBytes cval = strncpyBytes cval (meshIfaceCtrlValMaxSize - 1) :=
  if_neg (Nat.not_le.mpr h)

/-- The copy stores more than the buffer holds for one length of payload. -/
theorem length_controlBytes_le_iff (cval : CStr) :
    (controlBytes cval).length ≤ meshIfaceCtrlValMaxSize ↔
      cval.strlen ≠ meshIfaceCtrlValMaxSize := by
  by_cases h : cval.strlen ≤ meshIfaceCtrlValMaxSize
  · rw [controlBytes_of_le h, CStr.length_toBytes]
    omega
  · rw [controlBytes_of_gt (by omega), length_strncpyBytes]
    omega

/-- A payload shorter than the buffer is in it after the PUT. -/
theorem cstr?_update_of_lt (c : MeshControl) {cval : CStr} (io : PutIo)
    (h : cval.strlen < meshIfaceCtrlValMaxSize) :
    (c.update (some cval) io).value.cstr? = some cval := by
  rw [value_update_some, controlBytes_of_le (Nat.le_of_lt h)]
  exact c.value.cstr?_strcpy h

/-- A payload of exactly the buffer's size leaves no NUL in it. -/
theorem cstr?_update_of_eq (c : MeshControl) {cval : CStr} (io : PutIo)
    (h : cval.strlen = meshIfaceCtrlValMaxSize) :
    (c.update (some cval) io).value.cstr? = none := by
  rw [value_update_some, controlBytes_of_le (Nat.le_of_eq h)]
  exact c.value.cstr?_strcpy_of_ge (Nat.le_of_eq h.symm)

/-- A longer payload is cut to 15 characters, if the last byte was NUL. -/
theorem cstr?_update_of_gt (c : MeshControl) {cval : CStr} (io : PutIo)
    (h : meshIfaceCtrlValMaxSize < cval.strlen)
    (hlast : c.value.bytes[meshIfaceCtrlValMaxSize - 1]? = some 0) :
    (c.update (some cval) io).value.cstr? = some (cval.cut (meshIfaceCtrlValMaxSize - 1)) := by
  rw [value_update_some, controlBytes_of_gt h]
  exact c.value.cstr?_strncpy cval hlast

/-- The last byte of the buffer stays zero unless the payload has exactly
the buffer's size. -/
theorem getElem?_update_last (c : MeshControl) {cval : CStr} (io : PutIo)
    (h : cval.strlen ≠ meshIfaceCtrlValMaxSize)
    (hlast : c.value.bytes[meshIfaceCtrlValMaxSize - 1]? = some 0) :
    (c.update (some cval) io).value.bytes[meshIfaceCtrlValMaxSize - 1]? = some 0 := by
  rw [value_update_some]
  by_cases hle : (controlBytes cval).length ≤ meshIfaceCtrlValMaxSize - 1
  · rw [CharBuf.getElem?_store_of_le _ hle, hlast]
  · -- only the NUL of a payload of 15 characters is stored there
    have hlen : cval.strlen = meshIfaceCtrlValMaxSize - 1 := by
      have hfit := (length_controlBytes_le_iff cval).mpr h
      by_cases hs : cval.strlen ≤ meshIfaceCtrlValMaxSize
      · rw [controlBytes_of_le hs, CStr.length_toBytes] at hle hfit
        omega
      · rw [controlBytes_of_gt (by omega), length_strncpyBytes] at hle
        omega
    rw [CharBuf.getElem?_store_of_lt _ (by omega) (by decide), controlBytes_of_le (by omega),
      ← hlen]
    exact cval.getElem?_toBytes_strlen

/-- The record of a PUT shorter than the buffer is the payload and its NUL. -/
theorem record_update_of_lt (c : MeshControl) {cval : CStr} {io : PutIo}
    (hset : io.kvSetFails = false) (h : cval.strlen < meshIfaceCtrlValMaxSize) :
    (c.update (some cval) io).record = some cval.toBytes := by
  have hlen : cval.toBytes.length ≤ meshIfaceCtrlValMaxSize := by
    rw [CStr.length_toBytes]
    exact h
  have hread : ((c.value.store cval.toBytes).bytes).take (cval.strlen + 1) = cval.toBytes := by
    rw [CharBuf.bytes_store_of_le _ hlen]
    exact List.take_left' (CStr.length_toBytes cval)
  simp only [MeshControl.update, kvSet, hset, controlBytes_of_le (Nat.le_of_lt h),
    CharBuf.readBytes_of_le _ _ (show cval.strlen + 1 ≤ meshIfaceCtrlValMaxSize from h), hread]
  rfl

/-- The record of a longer PUT begins with the whole buffer and goes on
behind it. -/
theorem record_update_of_ge (c : MeshControl) {cval : CStr} {io : PutIo}
    (hset : io.kvSetFails = false) (h : meshIfaceCtrlValMaxSize ≤ cval.strlen) :
    ∃ r, (c.update (some cval) io).record = some r ∧ r.length = cval.strlen + 1 ∧
      r.take meshIfaceCtrlValMaxSize = (c.update (some cval) io).value.bytes := by
  refine ⟨_, by simp only [MeshControl.update, kvSet, hset]; rfl, ?_, ?_⟩
  · rw [CharBuf.length_readBytes]
  · rw [CharBuf.take_readBytes _ _ (by omega), value_update_some]

theorem record_update_of_fails (c : MeshControl) {payload : Option CStr} {io : PutIo}
    (hset : io.kvSetFails = true) : (c.update payload io).record = c.record := by
  cases payload with
  | none => rfl
  | some cval => simp [MeshControl.update, kvSet, hset]

/-! ## the block decision -/

/-- The comparison asks whether the buffer begins with `BLOCK`. -/
theorem controlBlocks_iff (value : CharBuf meshIfaceCtrlValMaxSize) :
    controlBlocks value = true ↔ meshIfaceCtrlBlock.chars <+: value.bytes := by
  rw [controlBlocks, beq_iff_eq, ← CStr.length_chars]
  exact strncmp_eq_zero_iff_prefix meshIfaceCtrlBlock.nul_notMem

/-- The control value begins with `BLOCK`. -/
def BeginsWithBlock (value : CharBuf meshIfaceCtrlValMaxSize) : Prop :=
  meshIfaceCtrlBlock.chars <+: value.bytes

theorem controlBlocks_eq_false_iff (value : CharBuf meshIfaceCtrlValMaxSize) :
    controlBlocks value = false ↔ ¬ BeginsWithBlock value := by
  rw [BeginsWithBlock, ← controlBlocks_iff, Bool.not_eq_true]

/-- A PUT of a payload that begins with `BLOCK` blocks. -/
theorem beginsWithBlock_update (c : MeshControl) {cval : CStr} (io : PutIo)
    (h : meshIfaceCtrlBlock.chars <+: cval.chars) :
    BeginsWithBlock (c.update (some cval) io).value := by
  have hbytes : meshIfaceCtrlBlock.chars <+: controlBytes cval := by
    by_cases hle : cval.strlen ≤ meshIfaceCtrlValMaxSize
    · rw [controlBytes_of_le hle]
      exact h.trans (List.prefix_append _ _)
    · rw [controlBytes_of_gt (Nat.not_le.mp hle)]
      exact prefix_strncpyBytes h (by decide)
  exact c.value.prefix_store hbytes (by decide)

end PelionBorderRouter
