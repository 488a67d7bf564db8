import PelionBorderRouter.ControlValue.Buffer

/-!
# PelionBorderRouter.ControlValue.Persist

What the mesh interface control is for: a register that outlives reboots.
`registerValue` is that abstract register — the last PUT payload, cut to 15
characters, or the compiled default — and knows nothing of buffers, sizes
and records.  The faithful model is compared with it at every step.

Three places can break the agreement:

* a payload of the buffer's size leaves the string unterminated
  (`control_register_iff`);
* a `kv_get` that fails at boot leaves the size at zero, and the write-back
  then empties the record (`boot_failed_read_keeps_record_iff`);
* the sizes the two writers of the record compute differ
  (`record_format_agrees_iff`).
-/

namespace PelionBorderRouter

/-! ## the register -/

/-- What an event does to the register: a PUT sets it, a reboot does not
touch it. -/
def registerNext (v : CStr) : ControlEvent → CStr
  | .put (some cval) _ => cval.cut (meshIfaceCtrlValMaxSize - 1)
  | _ => v

/-- The register after the events of a device's life. -/
def registerValue (cfg : Config) (h : List ControlEvent) : CStr :=
  h.foldl registerNext cfg.meshIfaceStartControl

@[simp] theorem registerValue_nil (cfg : Config) :
    registerValue cfg [] = cfg.meshIfaceStartControl := rfl

@[simp] theorem registerValue_concat (cfg : Config) (h : List ControlEvent) (e : ControlEvent) :
    registerValue cfg (h ++ [e]) = registerNext (registerValue cfg h) e := by
  simp [registerValue]

/-- The KVStore does not fail during the event: `kv_set` succeeds, and
`kv_get` succeeds or finds no record. -/
def KvHealthy : ControlEvent → Prop
  | .boot io => io.kvGetFails = false ∧ io.kvSetFails = false
  | .put _ io => io.kvSetFails = false

/-- The record brings `v` back at the next boot: it is empty or missing and
`v` the default, or `v` can be read from its first 16 bytes. -/
def RecordHolds (cfg : Config) (record : Option (List UInt8)) (v : CStr) : Prop :=
  (record = none ∨ record = some []) ∧ v = cfg.meshIfaceStartControl ∨
    ∃ r, record = some r ∧ readCStr? (r.take meshIfaceCtrlValMaxSize) = some v

/-- The buffer and the record both hold the register's value. -/
structure HoldsValue (cfg : Config) (c : MeshControl) (v : CStr) : Prop where
  value : c.value.cstr? = some v
  record : RecordHolds cfg c.record v

/-! ## one step keeps the register -/

/-- A boot finds the register's value again, and keeps the record good. -/
theorem holdsValue_boot (cfg : Config) {io : BootIo} (hio : KvHealthy (.boot io))
    {record : Option (List UInt8)} {v : CStr} (h : RecordHolds cfg record v) :
    HoldsValue cfg (readDefaultMeshIfaceControl cfg io record) v := by
  obtain ⟨hget, hset⟩ := hio
  cases record with
  | none =>
      have hv : v = cfg.meshIfaceStartControl := by simpa [RecordHolds] using h
      rw [boot_of_no_read cfg io (Or.inr rfl), hset, hv]
      exact ⟨cstr?_defaultValue cfg, Or.inl ⟨Or.inr rfl, rfl⟩⟩
  | some r =>
      rw [boot_of_read cfg hget, hset]
      cases h with
      | inl hempty =>
          obtain ⟨hr, rfl⟩ := hempty
          obtain rfl : r = [] := by simpa using hr
          have hstore : ((defaultValue cfg).store []).bytes = (defaultValue cfg).bytes :=
            CharBuf.bytes_store_of_le _ (Nat.zero_le _)
          refine ⟨?_, Or.inl ⟨Or.inr rfl, rfl⟩⟩
          rw [List.take_nil, CharBuf.cstr?, hstore]
          exact cstr?_defaultValue cfg
      | inr hread =>
          obtain ⟨r', hr', hv⟩ := hread
          obtain rfl : r = r' := Option.some.inj hr'
          refine ⟨?_, Or.inr ⟨_, rfl, by rw [List.take_take, Nat.min_self]; exact hv⟩⟩
          -- the NUL of the string read back hides what the default leaves behind it
          obtain ⟨rest, hrest⟩ := readCStr?_eq_some_iff.mp hv
          rw [CharBuf.cstr?, CharBuf.bytes_store_of_le _ (List.length_take_le _ _), hrest,
            List.append_assoc]
          exact readCStr?_append_nul v _

/-- A PUT of any payload but one of the buffer's size sets the register, in
the buffer and in the record. -/
theorem holdsValue_update (cfg : Config) {c : MeshControl} (hc : LastByteZero c) {cval : CStr}
    {io : PutIo} (hset : io.kvSetFails = false) (h : cval.strlen ≠ meshIfaceCtrlValMaxSize) :
    HoldsValue cfg (c.update (some cval) io) (cval.cut (meshIfaceCtrlValMaxSize - 1)) := by
  by_cases hlt : cval.strlen < meshIfaceCtrlValMaxSize
  · have hcut : cval.cut (meshIfaceCtrlValMaxSize - 1) = cval := CStr.cut_of_le (by omega)
    have hlen : cval.toBytes.length ≤ meshIfaceCtrlValMaxSize := by
      rw [CStr.length_toBytes]
      exact hlt
    rw [hcut]
    refine ⟨cstr?_update_of_lt c io hlt, Or.inr ⟨_, record_update_of_lt c hset hlt, ?_⟩⟩
    rw [List.take_of_length_le hlen]
    exact readCStr?_append_nul cval []
  · have hgt : meshIfaceCtrlValMaxSize < cval.strlen := by omega
    have hvalue := cstr?_update_of_gt c io hgt hc.value
    obtain ⟨r, hr, _, htake⟩ := record_update_of_ge c hset (Nat.not_lt.mp hlt)
    exact ⟨hvalue, Or.inr ⟨r, hr, by rw [htake]; exact hvalue⟩⟩

/-- One event, seen on the buffer, the record and the register. -/
theorem holdsValue_next (cfg : Config) {c : MeshControl} {v : CStr} (hc : LastByteZero c)
    (hv : HoldsValue cfg c v) {e : ControlEvent} (hkv : KvHealthy e) (he : NotBufferSized e) :
    HoldsValue cfg (c.next cfg e) (registerNext v e) := by
  cases e with
  | boot io => exact holdsValue_boot cfg hkv hv.record
  | put payload io =>
      cases payload with
      | none => exact hv
      | some cval => exact holdsValue_update cfg hc hkv he

/-- The decision of a buffer that holds `v` is the decision on `v`. -/
theorem controlBlocks_iff_of_cstr? {value : CharBuf meshIfaceCtrlValMaxSize} {v : CStr}
    (h : value.cstr? = some v) :
    controlBlocks value = true ↔ meshIfaceCtrlBlock.chars <+: v.chars := by
  rw [controlBlocks_iff]
  exact prefix_iff_of_readCStr? h meshIfaceCtrlBlock

/-! ## the register over a device's life -/

/-- Without payloads of the buffer's size, buffer and record hold the
register's value after every event. -/
theorem holds_holdsValue (cfg : Config) {io : BootIo} (hio : KvHealthy (.boot io))
    {h : List ControlEvent} (hkv : ∀ e ∈ h, KvHealthy e) (hh : ∀ e ∈ h, NotBufferSized e) :
    (controlMachine cfg io).Holds (fun pre c => HoldsValue cfg c (registerValue cfg pre)) h := by
  have hzero := holds_lastByteZero cfg io hh
  have hboth : (controlMachine cfg io).Holds
      (fun pre c => LastByteZero c ∧ HoldsValue cfg c (registerValue cfg pre)) h := by
    refine Machine.holds_of_always (C := fun _ _ e => KvHealthy e ∧ NotBufferSized e) ?_ ?_
      (Machine.always_ofTotal_iff.mpr fun e he => ⟨hkv e he, hh e he⟩)
    · exact ⟨hzero _ _ (List.nil_prefix) rfl,
        holdsValue_boot cfg hio (Or.inl ⟨Or.inl rfl, rfl⟩)⟩
    · intro pre c e c' _ hc he hstep
      obtain rfl : c.next cfg e = c' := Option.some.inj hstep
      rw [registerValue_concat]
      exact ⟨lastByteZero_next cfg hc.1 he.2, holdsValue_next cfg hc.1 hc.2 he.1 he.2⟩
  exact fun pre c hp hc => (hboth pre c hp hc).2

/-- **The control is a register**: with a KVStore that does not fail, the
string in the buffer is the register's value after every event, and so is
the decision taken on it, exactly when no payload has the buffer's size. -/
theorem control_register_iff (cfg : Config) (io : BootIo) (h : List ControlEvent)
    (hio : KvHealthy (.boot io)) (hkv : ∀ e ∈ h, KvHealthy e) :
    (controlMachine cfg io).Holds (fun pre c =>
        c.value.cstr? = some (registerValue cfg pre) ∧
          (controlBlocks c.value = true ↔
            meshIfaceCtrlBlock.chars <+: (registerValue cfg pre).chars)) h ↔
      ∀ e ∈ h, NotBufferSized e := by
  constructor
  · intro hholds
    have halways : (controlMachine cfg io).Always (fun _ _ e => NotBufferSized e) h := by
      intro pre c e c' ht
      obtain rfl : c.next cfg e = c' := Option.some.inj ht.2.2
      have hafter := (hholds _ _ ht.1 ht.run_eq).1
      cases e with
      | boot io => trivial
      | put payload io =>
          cases payload with
          | none => trivial
          | some cval =>
              intro hlen
              have hnone := cstr?_update_of_eq c io hlen
              exact absurd (hnone.symm.trans hafter) (by simp)
    exact Machine.always_ofTotal_iff.mp halways
  · intro hh pre c hp hc
    have hvalue := (holds_holdsValue cfg hio hkv hh pre c hp hc).value
    exact ⟨hvalue, controlBlocks_iff_of_cstr? hvalue⟩

/-- A PUT of `BLOCK` and a reboot of the shipped build. -/
theorem control_register_block_reboot :
    (controlMachine .shipped ⟨false, false⟩).Holds (fun pre c =>
        c.value.cstr? = some (registerValue .shipped pre) ∧
          (controlBlocks c.value = true ↔
            meshIfaceCtrlBlock.chars <+: (registerValue .shipped pre).chars))
      [.put (some meshIfaceCtrlBlock) ⟨fun _ => 0, false⟩, .boot ⟨false, false⟩] := by
  refine (control_register_iff .shipped ⟨false, false⟩ _ ⟨rfl, rfl⟩ ?_).mpr ?_
  · simp [KvHealthy]
  · simp only [List.forall_mem_cons, NotBufferSized]
    exact ⟨by decide, trivial, by simp⟩

/-- A payload of 16 characters is not in the buffer after its PUT. -/
theorem sixteen_chars_not_in_register :
    ¬ (controlMachine .shipped ⟨false, false⟩).Holds (fun pre c =>
        c.value.cstr? = some (registerValue .shipped pre) ∧
          (controlBlocks c.value = true ↔
            meshIfaceCtrlBlock.chars <+: (registerValue .shipped pre).chars))
      [.put (some sixteenChars) ⟨fun _ => 0, false⟩] := by
  intro hholds
  have hafter := (hholds _ _ (List.prefix_refl _) rfl).1
  revert hafter
  decide

/-! ## a boot that cannot read the record -/

/-- Some PUT has stored `r`. -/
def StoredByPut (r : List UInt8) : Prop :=
  ∃ (c : MeshControl) (cval : CStr) (io : PutIo), io.kvSetFails = false ∧
    (c.update (some cval) io).record = some r

/-- A stored record is never empty: it has at least the NUL. -/
theorem StoredByPut.ne_nil {r : List UInt8} (h : StoredByPut r) : r ≠ [] := by
  obtain ⟨c, cval, io, hset, hr⟩ := h
  rintro rfl
  by_cases hlt : cval.strlen < meshIfaceCtrlValMaxSize
  · rw [record_update_of_lt c hset hlt, Option.some.injEq] at hr
    simp [CStr.toBytes] at hr
  · obtain ⟨r, hr', hlen, _⟩ := record_update_of_ge c hset (Nat.not_lt.mp hlt)
    obtain rfl : r = [] := Option.some.inj (hr'.symm.trans hr)
    simp at hlen

/-- **A failed read**: the record a PUT stored outlives a boot that cannot
read it, and a later boot finds the value again, exactly when that boot's
`kv_set` fails as well. -/
theorem boot_failed_read_keeps_record_iff (cfg : Config) (r : List UInt8) (io : BootIo)
    (hr : StoredByPut r) (hget : io.kvGetFails = true) :
    ((readDefaultMeshIfaceControl cfg io (some r)).record = some r ∧
        ∀ later : BootIo, later.kvGetFails = false →
          (readDefaultMeshIfaceControl cfg later
              (readDefaultMeshIfaceControl cfg io (some r)).record).value =
            (readDefaultMeshIfaceControl cfg later (some r)).value) ↔
      io.kvSetFails = true := by
  rw [boot_of_no_read cfg io (Or.inl hget)]
  cases hset : io.kvSetFails with
  | true => simp
  | false =>
      have hne : [] ≠ r := hr.ne_nil.symm
      simp [hne]

/-- A boot of the shipped build with neither call working, after a PUT of
`BLOCK`. -/
theorem boot_failed_read_block :
    ((readDefaultMeshIfaceControl .shipped ⟨true, true⟩ (some meshIfaceCtrlBlock.toBytes)).record =
        some meshIfaceCtrlBlock.toBytes ∧
      ∀ later : BootIo, later.kvGetFails = false →
        (readDefaultMeshIfaceControl .shipped later
            (readDefaultMeshIfaceControl .shipped ⟨true, true⟩
              (some meshIfaceCtrlBlock.toBytes)).record).value =
          (readDefaultMeshIfaceControl .shipped later (some meshIfaceCtrlBlock.toBytes)).value) :=
  (boot_failed_read_keeps_record_iff .shipped meshIfaceCtrlBlock.toBytes ⟨true, true⟩
    ⟨⟨defaultValue .shipped, none⟩, meshIfaceCtrlBlock, ⟨fun _ => 0, false⟩, rfl, by decide⟩
    rfl).mpr rfl

/-- The operator's `BLOCK` is gone one boot after a read error: the record
is empty, and the next boot runs on the default. -/
theorem block_lost_after_failed_read :
    let stored := (MeshControl.update ⟨defaultValue .shipped, none⟩ (some meshIfaceCtrlBlock)
      ⟨fun _ => 0, false⟩).record
    let afterFault := readDefaultMeshIfaceControl .shipped ⟨true, false⟩ stored
    stored = some meshIfaceCtrlBlock.toBytes ∧ afterFault.record = some [] ∧
      (readDefaultMeshIfaceControl .shipped ⟨false, false⟩ afterFault.record).value.cstr? =
        some meshIfaceCtrlContinue := by
  decide

/-! ## the format of the record -/

/-- The record is the string in the buffer and its NUL. -/
def RecordAgrees (c : MeshControl) : Prop :=
  ∃ v : CStr, c.value.cstr? = some v ∧ c.record = some v.toBytes

/-- The event calls `kv_set`, and the call succeeds. -/
def KvSetSucceeds : ControlEvent → Prop
  | .boot io => io.kvSetFails = false
  | .put (some _) io => io.kvSetFails = false
  | .put none _ => False

/-- A boot reads a record whose first 16 bytes are a string and its NUL, to
the last byte; a PUT has a payload shorter than the buffer. -/
def FormatKept (record : Option (List UInt8)) : ControlEvent → Prop
  | .boot io => io.kvGetFails = false ∧
      ∃ (r : List UInt8) (v : CStr), record = some r ∧ r.take meshIfaceCtrlValMaxSize = v.toBytes
  | .put (some cval) _ => cval.strlen < meshIfaceCtrlValMaxSize
  | .put none _ => True

/-- The boot's side of the format. -/
theorem recordAgrees_boot_iff (cfg : Config) (io : BootIo) (record : Option (List UInt8))
    (hset : io.kvSetFails = false) :
    RecordAgrees (readDefaultMeshIfaceControl cfg io record) ↔ FormatKept record (.boot io) := by
  by_cases hread : io.kvGetFails = true ∨ record = none
  · rw [boot_of_no_read cfg io hread, hset]
    constructor
    · -- an empty record is not even a NUL
      rintro ⟨v, _, hv⟩
      simp [CStr.toBytes] at hv
    · rintro ⟨hget, r, v, hr, _⟩
      cases hread with
      | inl h => simp [h] at hget
      | inr h => simp [h] at hr
  · obtain ⟨hget, hne⟩ := not_or.mp hread
    obtain ⟨r, rfl⟩ := Option.ne_none_iff_exists'.mp hne
    have hget' : io.kvGetFails = false := by simpa using hget
    rw [boot_of_read cfg hget', hset]
    constructor
    · rintro ⟨v, _, hv⟩
      exact ⟨hget', r, v, rfl, Option.some.inj hv⟩
    · rintro ⟨_, r', v, hr', hv⟩
      obtain rfl : r = r' := Option.some.inj hr'
      refine ⟨v, ?_, congrArg some hv⟩
      rw [CharBuf.cstr?, CharBuf.bytes_store_of_le _ (List.length_take_le _ _), hv, CStr.toBytes,
        List.append_assoc]
      exact readCStr?_append_nul v _

/-- The PUT's side of the format. -/
theorem recordAgrees_update_iff (c : MeshControl) (cval : CStr) (io : PutIo)
    (hset : io.kvSetFails = false) :
    RecordAgrees (c.update (some cval) io) ↔ cval.strlen < meshIfaceCtrlValMaxSize := by
  by_cases hlt : cval.strlen < meshIfaceCtrlValMaxSize
  · exact iff_of_true ⟨cval, cstr?_update_of_lt c io hlt, record_update_of_lt c hset hlt⟩ hlt
  · refine iff_of_false ?_ hlt
    rintro ⟨v, hv, hrecord⟩
    -- the record has the payload's length, the buffer a string shorter than itself
    have hshort := CharBuf.strlen_lt_of_cstr? hv
    obtain ⟨r, hr, hlen, _⟩ := record_update_of_ge c hset (Nat.not_lt.mp hlt)
    obtain rfl : r = v.toBytes := Option.some.inj (hr.symm.trans hrecord)
    rw [CStr.length_toBytes] at hlen
    omega

/-- **Record format**: after a successful `kv_set` the record is the string
in the buffer and its NUL exactly when a boot read back such a record, or
the payload of the PUT is shorter than the buffer. -/
theorem record_format_agrees_iff (cfg : Config) (c : MeshControl) (e : ControlEvent)
    (h : KvSetSucceeds e) : RecordAgrees (c.next cfg e) ↔ FormatKept c.record e := by
  cases e with
  | boot io => exact recordAgrees_boot_iff cfg io c.record h
  | put payload io =>
      cases payload with
      | none => exact h.elim
      | some cval => exact recordAgrees_update_iff c cval io h

/-- A PUT of `BLOCK` writes the agreed format. -/
theorem record_format_block :
    RecordAgrees (MeshControl.next .shipped ⟨defaultValue .shipped, none⟩
      (.put (some meshIfaceCtrlBlock) ⟨fun _ => 0, false⟩)) :=
  (record_format_agrees_iff .shipped ⟨defaultValue .shipped, none⟩
    (.put (some meshIfaceCtrlBlock) ⟨fun _ => 0, false⟩) rfl).mpr (by
      unfold FormatKept
      decide)

/-- The first boot of a fresh device stores an empty record. -/
theorem first_boot_stores_empty_record :
    KvSetSucceeds (.boot ⟨false, false⟩) ∧
      (MeshControl.next .shipped ⟨defaultValue .shipped, none⟩ (.boot ⟨false, false⟩)).record =
        some [] ∧
      ¬ RecordAgrees
        (MeshControl.next .shipped ⟨defaultValue .shipped, none⟩ (.boot ⟨false, false⟩)) := by
  refine ⟨rfl, rfl, ?_⟩
  rintro ⟨v, _, hv⟩
  exact absurd (Option.some.inj hv) (by simp [CStr.toBytes])

end PelionBorderRouter
