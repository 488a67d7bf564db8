import PelionBorderRouter.ControlValue

/-!
# PelionBorderRouter.ControlValue.Buffer

Memory safety of `mesh_iface_control_value` over the life of a device.

What keeps the string inside its 16 bytes is the last one: the compiled
default and `strncpy` never reach it, a shorter `strcpy` stores a NUL at or
before it, and a record can only bring back what an earlier run had there.
`LastByteZero` says this of the buffer and of the record together, since a
boot reloads the record raw.

The length comparison of `mesh_iface_control_cb` lets a payload of exactly
16 characters through to `strcpy`, whose NUL then goes to index 16.
`control_buffer_safe_iff` says that this is the only way out of the buffer,
and that it always is one.
-/

namespace PelionBorderRouter

/-- Every byte the event stores into the buffer has an index inside it. -/
def WritesInside : ControlEvent → Prop
  | .put (some cval) _ => ∀ i < (controlBytes cval).length, i < meshIfaceCtrlValMaxSize
  | _ => True

/-- A NUL ends the string within the buffer's bytes. -/
def Terminated (c : MeshControl) : Prop := 0 ∈ c.value.bytes

/-- The payload of a PUT does not have exactly the buffer's size. -/
def NotBufferSized : ControlEvent → Prop
  | .put (some cval) _ => cval.strlen ≠ meshIfaceCtrlValMaxSize
  | _ => True

/-- Byte 15 is zero in the buffer, and in the record where it has one. -/
structure LastByteZero (c : MeshControl) : Prop where
  value : c.value.bytes[meshIfaceCtrlValMaxSize - 1]? = some 0
  record : ∀ r b, c.record = some r → r[meshIfaceCtrlValMaxSize - 1]? = some b → b = 0

theorem LastByteZero.terminated {c : MeshControl} (hc : LastByteZero c) : Terminated c :=
  List.mem_of_getElem? hc.value

/-- The string of a terminated buffer can be read. -/
theorem isSome_cstr?_iff (c : MeshControl) : c.value.cstr?.isSome ↔ Terminated c :=
  isSome_readCStr?_iff

/-- A store stays inside the buffer exactly when the payload is not of the
buffer's size. -/
theorem writesInside_iff (e : ControlEvent) : WritesInside e ↔ NotBufferSized e := by
  cases e with
  | boot io => exact Iff.rfl
  | put payload io =>
      cases payload with
      | none => exact Iff.rfl
      | some cval =>
          change (∀ i < (controlBytes cval).length, i < meshIfaceCtrlValMaxSize) ↔
            cval.strlen ≠ meshIfaceCtrlValMaxSize
          rw [← length_controlBytes_le_iff]
          constructor
          · intro h
            by_contra hlt
            exact absurd (h meshIfaceCtrlValMaxSize (by omega)) (Nat.lt_irrefl _)
          · intro h i hi
            omega

/-! ## the last byte -/

/-- A boot from a record with a zero last byte. -/
theorem lastByteZero_boot (cfg : Config) (io : BootIo) (record : Option (List UInt8))
    (h : ∀ r b, record = some r → r[meshIfaceCtrlValMaxSize - 1]? = some b → b = 0) :
    LastByteZero (readDefaultMeshIfaceControl cfg io record) := by
  by_cases hread : io.kvGetFails = true ∨ record = none
  · rw [boot_of_no_read cfg io hread]
    refine ⟨getElem?_defaultValue_last cfg, ?_⟩
    intro r b hr hb
    cases hset : io.kvSetFails with
    | true => exact h r b (by simpa [hset] using hr) hb
    | false =>
        obtain rfl : [] = r := by simpa [hset] using hr
        simp at hb
  · obtain ⟨hget, hne⟩ := not_or.mp hread
    obtain ⟨r, rfl⟩ := Option.ne_none_iff_exists'.mp hne
    rw [boot_of_read cfg (Bool.not_eq_true _ ▸ hget)]
    constructor
    · -- a record of 16 bytes or more brings its own last byte, a shorter one leaves the default's
      by_cases hlen : (r.take meshIfaceCtrlValMaxSize).length ≤ meshIfaceCtrlValMaxSize - 1
      · rw [CharBuf.getElem?_store_of_le _ hlen]
        exact getElem?_defaultValue_last cfg
      · have hlt : meshIfaceCtrlValMaxSize - 1 < r.length := by
          rw [List.length_take] at hlen
          omega
        rw [CharBuf.getElem?_store_of_lt _ (by omega) (by decide),
          List.getElem?_take_of_lt (by decide), List.getElem?_eq_getElem hlt]
        exact congrArg some (h r _ rfl (List.getElem?_eq_getElem hlt))
    · intro r' b hr' hb
      cases hset : io.kvSetFails with
      | true => exact h r' b (by simpa [hset] using hr') hb
      | false =>
          obtain rfl : r.take meshIfaceCtrlValMaxSize = r' := by simpa [hset] using hr'
          rw [List.getElem?_take_of_lt (by decide)] at hb
          exact h r b rfl hb

/-- A PUT of any payload but one of the buffer's size. -/
theorem lastByteZero_update {c : MeshControl} (hc : LastByteZero c) {cval : CStr} (io : PutIo)
    (h : cval.strlen ≠ meshIfaceCtrlValMaxSize) : LastByteZero (c.update (some cval) io) := by
  have hvalue := getElem?_update_last c io h hc.value
  refine ⟨hvalue, ?_⟩
  intro r b hr hb
  cases hset : io.kvSetFails with
  | true =>
      rw [record_update_of_fails c hset] at hr
      exact hc.record r b hr hb
  | false =>
      by_cases hlt : cval.strlen < meshIfaceCtrlValMaxSize
      · -- byte 15 of a string and its NUL can only be the NUL
        rw [record_update_of_lt c hset hlt, Option.some.injEq] at hr
        subst hr
        have hi : meshIfaceCtrlValMaxSize - 1 < cval.toBytes.length :=
          (List.getElem?_eq_some_iff.mp hb).1
        rw [CStr.length_toBytes] at hi
        have hlen : cval.strlen = meshIfaceCtrlValMaxSize - 1 := by omega
        rw [← hlen, cval.getElem?_toBytes_strlen] at hb
        exact (Option.some.inj hb).symm
      · obtain ⟨r', hr', _, htake⟩ := record_update_of_ge c hset (Nat.not_lt.mp hlt)
        obtain rfl : r' = r := Option.some.inj (hr'.symm.trans hr)
        rw [← htake, List.getElem?_take_of_lt (by decide), hb] at hvalue
        exact Option.some.inj hvalue

/-- One event keeps the last byte zero unless its payload has the buffer's
size. -/
theorem lastByteZero_next (cfg : Config) {c : MeshControl} (hc : LastByteZero c)
    {e : ControlEvent} (he : NotBufferSized e) : LastByteZero (c.next cfg e) := by
  cases e with
  | boot io => exact lastByteZero_boot cfg io c.record hc.record
  | put payload io =>
      cases payload with
      | none => exact hc
      | some cval => exact lastByteZero_update hc io he

/-- Over a life without such payloads the last byte is always zero. -/
theorem holds_lastByteZero (cfg : Config) (io : BootIo) {h : List ControlEvent}
    (hh : ∀ e ∈ h, NotBufferSized e) :
    (controlMachine cfg io).Holds (fun _ c => LastByteZero c) h := by
  refine Machine.holds_of_always (C := fun _ _ e => NotBufferSized e) ?_ ?_
    (Machine.always_ofTotal_iff.mpr hh)
  · exact lastByteZero_boot cfg io none fun _ _ hr => absurd hr (by simp)
  · intro pre c e c' _ hc he hstep
    obtain rfl : c.next cfg e = c' := Option.some.inj hstep
    exact lastByteZero_next cfg hc he

/-! ## the buffer over a device's life -/

/-- **Buffer safety**: over reboots and PUTs, whatever the KVStore answers,
all stores stay inside the buffer and a NUL stays in it exactly when no
payload has the buffer's size. -/
theorem control_buffer_safe_iff (cfg : Config) (io : BootIo) (h : List ControlEvent) :
    ((controlMachine cfg io).Always (fun _ _ e => WritesInside e) h ∧
        (controlMachine cfg io).Holds (fun _ c => Terminated c) h) ↔
      ∀ e ∈ h, NotBufferSized e := by
  constructor
  · rintro ⟨hwrites, _⟩ e he
    exact (writesInside_iff e).mp (Machine.always_ofTotal_iff.mp hwrites e he)
  · intro hh
    constructor
    · exact Machine.always_ofTotal_iff.mpr fun e he => (writesInside_iff e).mpr (hh e he)
    · exact fun pre c hp hc => (holds_lastByteZero cfg io hh pre c hp hc).terminated

/-- A payload of 16 characters, as long as the buffer. -/
def sixteenChars : CStr := ⟨List.replicate 16 'A'.toUInt8, by decide⟩

/-- One PUT of 16 characters on a fresh device: its NUL is stored at index
16, and the buffer holds none. -/
theorem sixteen_chars_leave_buffer :
    ¬ (controlMachine .shipped ⟨false, false⟩).Always (fun _ _ e => WritesInside e)
        [.put (some sixteenChars) ⟨fun _ => 0, false⟩] ∧
      ¬ (controlMachine .shipped ⟨false, false⟩).Holds (fun _ c => Terminated c)
        [.put (some sixteenChars) ⟨fun _ => 0, false⟩] := by
  constructor
  · intro hwrites
    have hin := Machine.always_ofTotal_iff.mp hwrites _ (List.mem_singleton_self _) 16 (by decide)
    exact absurd hin (by decide)
  · intro hholds
    have hterm := hholds _ _ (List.prefix_refl _) rfl
    revert hterm
    unfold Terminated
    decide

end PelionBorderRouter
