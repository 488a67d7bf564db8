import PelionBorderRouter.Dns.Address

/-!
# PelionBorderRouter.Dns.Host

What `parse_address` takes for the host of a server URI

```
scheme "://" host ":" port suffix
```

It looks for the last `:` of the whole URI and the last `/` before it.  In
the part up to the port these are the right ones, also for an IPv6 literal
with colons of its own; but the suffix (path, query, fragment) may hold
another `:`, and then the host is looked for in the suffix.
`parseAddress_host_iff` says for which suffixes the result is still the
host.
-/

namespace PelionBorderRouter

def questionMark : UInt8 := '?'.toUInt8

def numberSign : UInt8 := '#'.toUInt8

/-- A server URI: its parts, each within the characters it may have. -/
structure ServerUri where
  scheme : List UInt8
  host : List UInt8
  port : List UInt8
  suffix : List UInt8
  scheme_seps : colon ∉ scheme ∧ slash ∉ scheme
  host_ne_nil : host ≠ []
  host_seps : slash ∉ host ∧ questionMark ∉ host ∧ numberSign ∉ host
  port_ne_nil : port ≠ []
  port_digits : ∀ c ∈ port, '0'.toUInt8 ≤ c ∧ c ≤ '9'.toUInt8
  suffix_start : ∀ c ∈ suffix.head?, c = slash ∨ c = questionMark ∨ c = numberSign

namespace ServerUri

/-- The bytes of the URI. -/
def text (u : ServerUri) : List UInt8 :=
  u.scheme ++ [colon, slash, slash] ++ u.host ++ [colon] ++ u.port ++ u.suffix

end ServerUri

/-- A call of `parse_address` returned `0` and left the C string `host`. -/
def ParsesTo (result : Int × Option NameBuf) (host : List UInt8) : Prop :=
  result.1 = 0 ∧ (nameCStr? result.2).map CStr.chars = some host

instance (result : Int × Option NameBuf) (host : List UInt8) : Decidable (ParsesTo result host) :=
  instDecidableAnd

/-- The host has no NUL, and the suffix does not hide it: the suffix has no
`:`, or what `parse_address` looks for stands in the suffix once more. -/
def HostFound (u : ServerUri) : Prop :=
  0 ∉ u.host ∧ (colon ∉ u.suffix ∨
    ∃ name, IsServerName u.suffix name ∧ u.host ++ [0] <+: name ++ [0])

/-! ## separators -/

theorem colon_notMem_port (u : ServerUri) : colon ∉ u.port := by
  intro h
  exact absurd (u.port_digits colon h).2 (by decide)

theorem slash_notMem_port (u : ServerUri) : slash ∉ u.port := by
  intro h
  exact absurd (u.port_digits slash h).1 (by decide)

/-- A server name stays the server name behind anything. -/
theorem IsServerName.append_left {uri name : List UInt8} (h : IsServerName uri name)
    (front : List UInt8) : IsServerName (front ++ uri) name := by
  obtain ⟨front', port, rfl, hname, hport⟩ := h
  exact ⟨front ++ front', port, by simp, hname, hport⟩

/-- A list with a `:` has a server name, or its last `:` comes before any
`/`. -/
theorem isServerName_or_of_colon_mem {uri : List UInt8} (h : colon ∈ uri) :
    (∃ name, IsServerName uri name) ∨
      ∃ front port, uri = front ++ colon :: port ∧ slash ∉ front ∧ colon ∉ port := by
  obtain ⟨front, port, rfl, hport⟩ := exists_append_cons_of_mem h
  by_cases hslash : slash ∈ front
  · obtain ⟨front', name, rfl, hname⟩ := exists_append_cons_of_mem hslash
    exact Or.inl ⟨name, front', port, by simp, hname, hport⟩
  · exact Or.inr ⟨front, port, rfl, hslash, hport⟩

/-! ## the server name of a server URI -/

/-- Without a `:` in the suffix, the server name is the host. -/
theorem isServerName_host {u : ServerUri} (h : colon ∉ u.suffix) :
    IsServerName u.text u.host := by
  refine ⟨u.scheme ++ [colon, slash], u.port ++ u.suffix, by simp [ServerUri.text],
    u.host_seps.1, ?_⟩
  simp [colon_notMem_port u, h]

/-- When the last `:` of the suffix comes before any `/` of it, the server
name goes on past the port. -/
theorem isServerName_past_port {u : ServerUri} {front rest : List UInt8}
    (hsuffix : u.suffix = front ++ colon :: rest) (hfront : slash ∉ front) (hrest : colon ∉ rest) :
    IsServerName u.text (u.host ++ colon :: (u.port ++ front)) := by
  refine ⟨u.scheme ++ [colon, slash], rest, by simp [ServerUri.text, hsuffix], ?_, hrest⟩
  have hne : slash ≠ colon := by decide
  simp [u.host_seps.1, slash_notMem_port u, hfront, hne]

/-- A server name in the suffix is the server name of the URI. -/
theorem isServerName_of_suffix {u : ServerUri} {name : List UInt8}
    (h : IsServerName u.suffix name) : IsServerName u.text name :=
  h.append_left _

/-! ## what parse_address finds -/

/-- A first call stores the server name, which reads back as `host` up to a
NUL. -/
theorem parsesTo_iff_of_isServerName {uri name : List UInt8} (h : IsServerName uri name)
    (host : List UInt8) :
    ParsesTo (parseAddress uri uri.length none true) host ↔
      0 ∉ host ∧ host ++ [0] <+: name ++ [0] := by
  have hparse : parseAddress uri uri.length none true = (0, some ⟨name.length + 1, name⟩) :=
    parseAddress_of_isServerName h none true
  rw [ParsesTo, hparse]
  exact (and_iff_right rfl).trans map_chars_readCStr?_eq_some_iff

/-- **Host extraction**: for a server URI of any form `parse_address` returns
`0` and leaves exactly the host when, and only when, the suffix has no `:`
or names the host again. -/
theorem parseAddress_host_iff (u : ServerUri) :
    ParsesTo (parseAddress u.text u.text.length none true) u.host ↔ HostFound u := by
  unfold HostFound
  by_cases hcolon : colon ∈ u.suffix
  · cases isServerName_or_of_colon_mem hcolon with
    | inl hname =>
        obtain ⟨name, hname⟩ := hname
        rw [parsesTo_iff_of_isServerName (isServerName_of_suffix hname)]
        refine and_congr_right fun _ => ⟨fun hp => Or.inr ⟨name, hname, hp⟩, fun hor => ?_⟩
        cases hor with
        | inl hnot => exact absurd hcolon hnot
        | inr hagain =>
            obtain ⟨name', hname', hp⟩ := hagain
            exact hname.unique hname' ▸ hp
    | inr hpast =>
        obtain ⟨front, rest, hsuffix, hfront, hrest⟩ := hpast
        have hname := isServerName_past_port hsuffix hfront hrest
        rw [parsesTo_iff_of_isServerName hname]
        -- the text goes on with the `:` before the port, not with a NUL
        have hlong : ¬ u.host ++ [0] <+: u.host ++ colon :: (u.port ++ front) ++ [0] := by
          rw [List.append_assoc, List.prefix_append_right_inj, List.cons_append,
            List.cons_prefix_cons]
          exact fun h => absurd h.1 (by decide)
        refine and_congr_right fun _ => iff_of_false hlong fun hor => ?_
        cases hor with
        | inl hnot => exact hnot hcolon
        | inr hagain =>
            obtain ⟨name', hname', hp⟩ := hagain
            have heq := hname.unique (isServerName_of_suffix hname')
            exact hlong (heq ▸ hp)
  · rw [parsesTo_iff_of_isServerName (isServerName_host hcolon)]
    exact and_congr_right fun _ => iff_of_true (List.prefix_refl _) (Or.inl hcolon)

/-- `coap://h:1/a:b`. -/
def colonInPath : ServerUri where
  scheme := ['c', 'o', 'a', 'p'].map Char.toUInt8
  host := ['h'].map Char.toUInt8
  port := ['1'].map Char.toUInt8
  suffix := ['/', 'a', ':', 'b'].map Char.toUInt8
  scheme_seps := by decide
  host_ne_nil := by decide
  host_seps := by decide
  port_ne_nil := by decide
  port_digits := by decide +kernel
  suffix_start := by decide +kernel

/-- A `:` in the path: the host found is a segment of the path. -/
theorem colon_in_path_hides_host :
    ¬ ParsesTo (parseAddress colonInPath.text colonInPath.text.length none true)
        colonInPath.host ∧
      ParsesTo (parseAddress colonInPath.text colonInPath.text.length none true)
        (['a'].map Char.toUInt8) := by
  decide

end PelionBorderRouter
