import PelionBorderRouter.Lib.CString
import PelionBorderRouter.Lib.Scan

/-!
# PelionBorderRouter.Dns.Address

`parse_address` of `network_dns_optimization.cpp`: the server name in a
stored URI, copied into an allocation that is made on the first call and
reused by every later one.

`IsServerName uri host` is the specification: `host` stands between the
last `:` and the last `/` before it.  A URI has at most one such host, and
`parse_address` stores exactly that one (`parseAddress_of_isServerName`) or
refuses (`parseAddress_of_not`).
-/

namespace PelionBorderRouter

def colon : UInt8 := ':'.toUInt8

def slash : UInt8 := '/'.toUInt8

/-- An allocation made for a server name: its size, and the characters that
`parse_address` copied to its start last.  What it stores behind them, and
whether all of it fits, is `stored`. -/
structure NameBuf where
  capacity : Nat
  copied : List UInt8
deriving DecidableEq, Repr

namespace NameBuf

/-- The bytes stored from the start of the allocation on: the name and the
terminating NUL. -/
def stored (b : NameBuf) : List UInt8 := b.copied ++ [0]

/-- All stored bytes lie inside the allocation. -/
def Fits (b : NameBuf) : Prop := b.stored.length ≤ b.capacity

theorem fits_iff (b : NameBuf) : b.Fits ↔ b.copied.length < b.capacity := by
  rw [Fits, stored, List.length_append]
  exact Nat.succ_le_iff

end NameBuf

/-- The C string a name pointer leads to; `none` for `NULL`. -/
def nameCStr? (p : Option NameBuf) : Option CStr := p.bind fun b => readCStr? b.stored

/-- `parse_address`: the return value, and what `*parsed_addr` is then.
`malloc` says whether an allocation would succeed. -/
def parseAddress (rawAddr : List UInt8) (rawAddrSize : Nat) (parsedAddr : Option NameBuf)
    (malloc : Bool) : Int × Option NameBuf :=
  let endIndex := scanLast rawAddr colon rawAddrSize
  if endIndex = -1 then (-1, parsedAddr)
  else
    let startIndex := scanLast rawAddr slash endIndex.toNat
    if startIndex = -1 then (-1, parsedAddr)
    else
      -- pointing to the next character of '/'
      let startIndex := startIndex + 1
      let parsedAddrSize := endIndex - startIndex
      let capacity :=
        match parsedAddr with
        | some b => some b.capacity
        | none => if malloc then some (parsedAddrSize + 1).toNat else none
      match capacity with
      | none => (-1, none)
      | some capacity =>
          (0, some ⟨capacity, (rawAddr.drop startIndex.toNat).take parsedAddrSize.toNat⟩)

/-- `host` stands in `uri` between its last `:` and the last `/` before. -/
def IsServerName (uri host : List UInt8) : Prop :=
  ∃ front port, uri = front ++ slash :: (host ++ colon :: port) ∧ slash ∉ host ∧ colon ∉ port

/-! ## the two scans -/

/-- The scans of a URI with a server name. -/
theorem scans_of_isServerName {uri host : List UInt8} (h : IsServerName uri host) :
    ∃ start : Nat, scanLast uri colon uri.length = (start + 1 + host.length : Nat) ∧
      scanLast uri slash (start + 1 + host.length) = start ∧
      (uri.drop (start + 1)).take host.length = host := by
  obtain ⟨front, port, rfl, hhost, hport⟩ := h
  refine ⟨front.length, ?_, ?_, ?_⟩
  · have hscan : scanLast ((front ++ slash :: host) ++ colon :: (port ++ [])) colon
        ((front ++ slash :: host).length + 1 + port.length) = (front ++ slash :: host).length :=
      scanLast_append_cons hport
    have hlen : (front ++ slash :: host).length + 1 + port.length =
        (front ++ slash :: (host ++ colon :: port)).length := by
      simp only [List.length_append, List.length_cons]
      omega
    rw [hlen, List.append_nil, List.append_assoc, List.cons_append] at hscan
    rw [hscan]
    simp only [List.length_append, List.length_cons]
    omega
  · exact scanLast_append_cons hhost
  · rw [List.drop_append, Nat.add_sub_cancel_left, List.drop_of_length_le (by omega)]
    simp

/-- When both scans find something, the URI has a server name. -/
theorem isServerName_of_scans {uri : List UInt8} (hend : scanLast uri colon uri.length ≠ -1)
    (hstart : scanLast uri slash (scanLast uri colon uri.length).toNat ≠ -1) :
    ∃ host, IsServerName uri host := by
  obtain ⟨i, hi⟩ := exists_scanLast_eq hend
  rw [hi, Int.toNat_natCast] at hstart
  obtain ⟨j, hj⟩ := exists_scanLast_eq hstart
  obtain ⟨_, front, port, rest, huri, hfront, _, hrest, hport⟩ := exists_append_of_scanLast hi
  obtain ⟨_, front', host, rest', huri', hfront', hle', hrest', hhost⟩ :=
    exists_append_of_scanLast hj
  -- the first scan went over the whole URI
  obtain rfl : rest = [] := by
    cases hrest with
    | inl h => exact h
    | inr h =>
        have hlen := congrArg List.length huri
        simp only [List.length_append, List.length_cons] at hlen
        exact List.length_eq_zero_iff.mp (by omega)
  -- the second one ended at the `:` the first one found
  have hstop : j + 1 + host.length = i := by
    cases hrest' with
    | inl h =>
        subst h
        have hlen := congrArg List.length huri'
        have hlen' := congrArg List.length huri
        simp only [List.length_append, List.length_cons, List.length_nil] at hlen hlen'
        omega
    | inr h => exact h
  have hsplit : front = front' ++ slash :: host ∧ colon :: (port ++ []) = rest' := by
    have happ : front ++ colon :: (port ++ []) = (front' ++ slash :: host) ++ rest' := by
      rw [← huri, huri']
      simp
    refine List.append_inj happ ?_
    simp only [List.length_append, List.length_cons]
    omega
  refine ⟨host, front', port, ?_, hhost, hport⟩
  rw [huri', ← hsplit.2, List.append_nil]

/-! ## what parse_address returns -/

/-- A URI with a server name: the name is stored if there is storage for a
name at all. -/
theorem parseAddress_of_isServerName {uri host : List UInt8} (h : IsServerName uri host)
    (p : Option NameBuf) (malloc : Bool) :
    parseAddress uri uri.length p malloc =
      match p with
      | some b => (0, some ⟨b.capacity, host⟩)
      | none => if malloc then (0, some ⟨host.length + 1, host⟩) else (-1, none) := by
  obtain ⟨start, hend, hstart, hslice⟩ := scans_of_isServerName h
  have hsize : ((start + 1 + host.length : Nat) : Int) - ((start : Int) + 1) = host.length := by
    omega
  have hne : ((start + 1 + host.length : Nat) : Int) ≠ -1 := by omega
  have hne' : (start : Int) ≠ -1 := by omega
  have htoNat : ((start : Int) + 1).toNat = start + 1 := by omega
  have hcap : ((host.length : Int) + 1).toNat = host.length + 1 := by omega
  simp only [parseAddress, hend, Int.toNat_natCast, hstart, if_neg hne, if_neg hne', hsize, htoNat,
    hslice, hcap]
  cases p with
  | some b => rfl
  | none => cases malloc <;> rfl

/-- A URI without one is refused, and nothing changes. -/
theorem parseAddress_of_not {uri : List UInt8} (h : ∀ host, ¬ IsServerName uri host)
    (p : Option NameBuf) (malloc : Bool) : parseAddress uri uri.length p malloc = (-1, p) := by
  unfold parseAddress
  by_cases hend : scanLast uri colon uri.length = -1
  · rw [if_pos hend]
  · rw [if_neg hend]
    by_cases hstart : scanLast uri slash (scanLast uri colon uri.length).toNat = -1
    · rw [if_pos hstart]
    · obtain ⟨host, hhost⟩ := isServerName_of_scans hend hstart
      exact absurd hhost (h host)

/-- A URI has at most one server name. -/
theorem IsServerName.unique {uri host host' : List UInt8} (h : IsServerName uri host)
    (h' : IsServerName uri host') : host = host' := by
  have heq := (parseAddress_of_isServerName h (some ⟨0, []⟩) false).symm.trans
    (parseAddress_of_isServerName h' (some ⟨0, []⟩) false)
  simpa using heq

/-- The name in a fresh allocation fits it. -/
theorem parseAddress_alloc_fits {uri : List UInt8} {malloc : Bool} {b : NameBuf}
    (h : (parseAddress uri uri.length none malloc).2 = some b) : b.Fits := by
  by_cases hname : ∃ host, IsServerName uri host
  · obtain ⟨host, hhost⟩ := hname
    rw [parseAddress_of_isServerName hhost] at h
    cases malloc with
    | false => simp at h
    | true =>
        obtain rfl : ⟨host.length + 1, host⟩ = b := by simpa using h
        simp [NameBuf.fits_iff]
  · rw [parseAddress_of_not (not_exists.mp hname)] at h
    simp at h

end PelionBorderRouter
