import PelionBorderRouter.Dns

/-!
# PelionBorderRouter.Dns.Names

Memory safety of the server names.  A name is allocated by the first
configure call that finds a server name and memory for it, with room for
exactly that name; every later call copies into the same allocation without
looking at its size.  So the URIs of different registrations are tied
together: `capacity_serverName` says that the first name stored decides the
size for good, and `names_fit_iff` that all copies stay inside their
allocations exactly when no later server name is longer than the first one.

`firstName` reads the first name off the events alone: off the URIs and the
answers of `malloc`, and not off the module's globals.
-/

namespace PelionBorderRouter

/-- Every name the module points to lies inside its allocation. -/
def NamesFit (d : Dns) : Prop :=
  ∀ server b, d.serverName server = some b → b.Fits

/-! ## the names in the events -/

/-- The server name in a URI, looked for from the back. -/
def serverName? (uri : List UInt8) : Option (List UInt8) :=
  match uri.reverse.dropWhile (· != colon) with
  | [] => none
  | _ :: before =>
      if slash ∈ before then some (before.takeWhile (· != slash)).reverse else none

/-- The server name a call reads for `server`. -/
def readName? (server : Server) : DnsEvent → Option (List UInt8)
  | .configure _ _ io => (io.uri server).bind fun uri => serverName? uri.bytes
  | _ => none

/-- The server name a call would allocate memory for. -/
def allocatedName? (server : Server) (e : DnsEvent) : Option (List UInt8) :=
  match e with
  | .configure _ _ io => if io.nameMalloc server then readName? server e else none
  | _ => none

/-- The first server name stored for `server`. -/
def firstName (server : Server) (h : List DnsEvent) : Option (List UInt8) :=
  h.findSome? (allocatedName? server)

/-- The event reads no server name that is longer than the first one stored
for its server. -/
def NoLongerName (pre : List DnsEvent) (e : DnsEvent) : Prop :=
  ∀ server first later, firstName server pre = some first → readName? server e = some later →
    later.length ≤ first.length

/-! ### the server name -/

theorem serverName?_of_isServerName {uri host : List UInt8} (h : IsServerName uri host) :
    serverName? uri = some host := by
  obtain ⟨front, port, rfl, hhost, hport⟩ := h
  have hrev : (front ++ slash :: (host ++ colon :: port)).reverse =
      port.reverse ++ colon :: (host.reverse ++ slash :: front.reverse) := by simp
  have hdrop : (port.reverse ++ colon :: (host.reverse ++ slash :: front.reverse)).dropWhile
      (· != colon) = colon :: (host.reverse ++ slash :: front.reverse) := by
    rw [List.dropWhile_append_of_pos fun c hc => ?_, List.dropWhile_cons_of_neg (by simp)]
    rw [bne_iff_ne]
    rintro rfl
    exact hport (List.mem_reverse.mp hc)
  have htake : (host.reverse ++ slash :: front.reverse).takeWhile (· != slash) = host.reverse := by
    rw [List.takeWhile_append_of_pos fun c hc => ?_, List.takeWhile_cons_of_neg (by simp),
      List.append_nil]
    rw [bne_iff_ne]
    rintro rfl
    exact hhost (List.mem_reverse.mp hc)
  rw [serverName?, hrev, hdrop]
  simp [htake]

theorem isServerName_of_serverName? {uri host : List UInt8} (h : serverName? uri = some host) :
    IsServerName uri host := by
  unfold serverName? at h
  cases hend : uri.reverse.dropWhile (· != colon) with
  | nil => simp [hend] at h
  | cons c before =>
      simp only [hend, Option.ite_none_right_eq_some, Option.some.injEq] at h
      obtain ⟨hmem, rfl⟩ := h
      obtain ⟨rest, hrest⟩ := exists_dropWhile_eq hmem
      obtain ⟨_, huri, hport⟩ := eq_append_of_dropWhile hend
      obtain ⟨_, hbefore, hhost⟩ := eq_append_of_dropWhile hrest
      refine ⟨rest.reverse, (uri.reverse.takeWhile (· != colon)).reverse, ?_,
        by rwa [List.mem_reverse], by rwa [List.mem_reverse]⟩
      have hrev := congrArg List.reverse huri
      rw [hbefore] at hrev
      simpa using hrev

/-- `serverName?` finds the server name, if there is one. -/
theorem serverName?_eq_some_iff {uri host : List UInt8} :
    serverName? uri = some host ↔ IsServerName uri host :=
  ⟨isServerName_of_serverName?, serverName?_of_isServerName⟩

theorem not_isServerName_of_eq_none {uri : List UInt8} (h : serverName? uri = none)
    (host : List UInt8) : ¬ IsServerName uri host := by
  rw [← serverName?_eq_some_iff, h]
  simp

/-! ## one call -/

/-- What `parse_address` leaves has the size it had, or that of the name it
has allocated. -/
theorem capacity_parseAddress (uri : List UInt8) (p : Option NameBuf) (malloc : Bool) :
    (parseAddress uri uri.length p malloc).2.map NameBuf.capacity =
      (p.map NameBuf.capacity).or
        (if malloc then (serverName? uri).map (·.length + 1) else none) := by
  cases hname : serverName? uri with
  | none =>
      rw [parseAddress_of_not (not_isServerName_of_eq_none hname)]
      simp
  | some host =>
      rw [parseAddress_of_isServerName (serverName?_eq_some_iff.mp hname)]
      cases p with
      | some b => rfl
      | none => cases malloc <;> rfl

/-- One call, seen from one server. -/
theorem fits_parseAddress_iff {uri : List UInt8} {p : Option NameBuf} {malloc : Bool}
    (hp : ∀ b, p = some b → b.Fits) :
    (∀ b, (parseAddress uri uri.length p malloc).2 = some b → b.Fits) ↔
      ∀ capacity later, p.map NameBuf.capacity = some capacity → serverName? uri = some later →
        later.length < capacity := by
  cases p with
  | none => exact iff_of_true (fun b hb => parseAddress_alloc_fits hb) (by simp)
  | some b =>
      cases hname : serverName? uri with
      | none =>
          rw [parseAddress_of_not (not_isServerName_of_eq_none hname)]
          exact iff_of_true hp (by simp)
      | some later =>
          rw [parseAddress_of_isServerName (serverName?_eq_some_iff.mp hname)]
          simp [NameBuf.fits_iff]

/-- A configure call leaves the size of each allocation as it is, and makes
the allocations that were not there. -/
theorem capacity_configure (d : Dns) (wisunBr backboneIface : Handle) (io : ConfigureIo)
    (server : Server) :
    ((networkDnsOptConfigure d wisunBr backboneIface io).serverName server).map
        NameBuf.capacity =
      ((d.serverName server).map NameBuf.capacity).or
        ((allocatedName? server (.configure wisunBr backboneIface io)).map (·.length + 1)) := by
  rw [serverName_configure]
  cases huri : io.uri server with
  | none => simp [allocatedName?, readName?, huri]
  | some uri =>
      refine (capacity_parseAddress uri.bytes _ _).trans ?_
      simp only [allocatedName?, readName?, huri, Option.bind_some]
      cases io.nameMalloc server <;> rfl

/-- A configure call keeps the names inside their allocations exactly when
these have room for the names it reads. -/
theorem namesFit_configure_iff {d : Dns} (hd : NamesFit d) (wisunBr backboneIface : Handle)
    (io : ConfigureIo) :
    NamesFit (networkDnsOptConfigure d wisunBr backboneIface io) ↔
      ∀ server capacity later, (d.serverName server).map NameBuf.capacity = some capacity →
        readName? server (.configure wisunBr backboneIface io) = some later →
          later.length < capacity := by
  refine forall_congr' fun server => ?_
  rw [serverName_configure]
  cases huri : io.uri server with
  | none => exact iff_of_true (hd server) (by simp [readName?, huri])
  | some uri =>
      have hread : readName? server (.configure wisunBr backboneIface io) =
          serverName? uri.bytes := by simp [readName?, huri]
      rw [hread]
      exact fits_parseAddress_iff (hd server)

/-! ## whole runs -/

/-- **The first name decides**: in every reachable state a name has an
allocation exactly when one has been stored, with room for the first one and
its NUL. -/
theorem capacity_serverName {h : List DnsEvent} {s : DnsSystem}
    (hrun : dnsMachine.run h = some s) (server : Server) :
    (s.dns.serverName server).map NameBuf.capacity = (firstName server h).map (·.length + 1) := by
  refine dnsMachine.invariant (R := fun h s => (s.dns.serverName server).map NameBuf.capacity =
    (firstName server h).map (·.length + 1)) ?_ ?_ hrun
  · cases server <;> rfl
  · intro pre s e s' _ ih hstep
    have hfirst : firstName server (pre ++ [e]) =
        (firstName server pre).or (allocatedName? server e) := by
      rw [firstName, List.findSome?_append, List.findSome?_singleton]
      rfl
    rw [hfirst, Option.map_or, ← ih]
    cases e with
    | configure wisunBr backboneIface io =>
        obtain rfl : s.configure wisunBr backboneIface io = s' := Option.some.inj hstep
        exact capacity_configure s.dns wisunBr backboneIface io server
    | querySet accepted =>
        obtain rfl : s.querySet accepted = s' := Option.some.inj hstep
        simp [allocatedName?]
    | answer q result address =>
        rw [(answer_eq_some hstep).2.1]
        simp [allocatedName?]

/-- With the allocations of the first names, a configure call keeps the names
inside them exactly when it reads no longer ones. -/
theorem namesFit_configure_iff_noLongerName {pre : List DnsEvent} {s : DnsSystem}
    (hrun : dnsMachine.run pre = some s) (hs : NamesFit s.dns) (wisunBr backboneIface : Handle)
    (io : ConfigureIo) :
    NamesFit (networkDnsOptConfigure s.dns wisunBr backboneIface io) ↔
      NoLongerName pre (.configure wisunBr backboneIface io) := by
  rw [namesFit_configure_iff hs]
  refine forall_congr' fun server => ?_
  rw [capacity_serverName hrun]
  constructor
  · intro h first later hfirst hlater
    exact Nat.lt_succ_iff.mp (h (first.length + 1) later (by rw [hfirst]; rfl) hlater)
  · intro h capacity later hcapacity hlater
    obtain ⟨first, hfirst, rfl⟩ := Option.map_eq_some_iff.mp hcapacity
    exact Nat.lt_succ_iff.mpr (h first later hfirst hlater)

/-- **Name storage**: over any sequence of configure calls, queries and
answers, every name and its NUL are stored inside their allocation exactly
when no call reads a server name that is longer than the first one stored
for its server. -/
theorem names_fit_iff (h : List DnsEvent) :
    dnsMachine.Holds (fun _ s => NamesFit s.dns) h ↔
      dnsMachine.Always (fun pre _ e => NoLongerName pre e) h := by
  refine Machine.holds_iff_always ?_ ?_ h
  · intro server b hb
    cases server <;>
      exact absurd hb (by simp [dnsMachine, DnsSystem.init, Dns.init, Dns.serverName])
  · intro pre s e s' hrun hs hstep
    cases e with
    | configure wisunBr backboneIface io =>
        obtain rfl : s.configure wisunBr backboneIface io = s' := Option.some.inj hstep
        exact namesFit_configure_iff_noLongerName hrun hs wisunBr backboneIface io
    | querySet accepted =>
        obtain rfl : s.querySet accepted = s' := Option.some.inj hstep
        exact iff_of_true hs fun server first later _ hlater => by simp [readName?] at hlater
    | answer q result address =>
        have hdns : s'.dns = s.dns := (answer_eq_some hstep).2.1
        exact iff_of_true (hdns ▸ hs) fun server first later _ hlater => by
          simp [readName?] at hlater

/-- `coaps://a:1`. -/
def shortUri : CcsItem :=
  ⟨['c', 'o', 'a', 'p', 's', ':', '/', '/', 'a', ':', '1'].map Char.toUInt8, by decide⟩

/-- `coaps://bb:1`. -/
def longUri : CcsItem :=
  ⟨['c', 'o', 'a', 'p', 's', ':', '/', '/', 'b', 'b', ':', '1'].map Char.toUInt8, by decide⟩

/-- A configure call that reads `uri` for both servers, with all memory it
asks for. -/
def configureWith (uri : CcsItem) : DnsEvent :=
  .configure 1 2 ⟨true, fun _ => some uri, fun _ => true⟩

/-- The two characters of a second server name and its NUL go into an
allocation of two bytes. -/
theorem second_name_overflows :
    ¬ dnsMachine.Holds (fun _ s => NamesFit s.dns)
      [configureWith shortUri, configureWith longUri] := by
  intro hholds
  have hfits := hholds _ _ (List.prefix_refl _) rfl .bootstrap
    ⟨2, ['b', 'b'].map Char.toUInt8⟩ (by decide)
  revert hfits
  unfold NameBuf.Fits
  decide

end PelionBorderRouter
