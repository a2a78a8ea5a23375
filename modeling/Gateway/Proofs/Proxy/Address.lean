import Gateway.Proofs.Net.Address
import Gateway.Proofs.Url.Parts
import Gateway.Proxy.Outbound

/-! Where a request goes that is forwarded: to the host of the target, whatever its own address says.
The address is written out and read again, and no part of it can run into the next one. -/

namespace Gateway

namespace Outbound

/-! ### Paths -/

/-- One path after another, with one slash where they meet. -/
inductive Seam (front back : String) : String → Prop
  | dropped {rest : String} :
    front.toList.getLast? = some '/' → back = "/" ++ rest → Seam front back (front ++ rest)
  | inserted :
    front.toList.getLast? ≠ some '/' → back.toList.head? ≠ some '/' →
      Seam front back (front ++ "/" ++ back)
  | met :
    (front.toList.getLast? = some '/' ↔ back.toList.head? ≠ some '/') →
      Seam front back (front ++ back)

theorem head?_ne_slash {s : String} (h : ∀ rest, s.toList = '/' :: rest → False) :
    s.toList.head? ≠ some '/' := by
  intro hhead
  obtain ⟨rest, hs⟩ := List.head?_eq_some_iff.mp hhead
  exact h rest hs

theorem seam_joinSlash (a b : String) : Seam a b (joinSlash a b) := by
  unfold joinSlash
  split
  · next rest hlast hb =>
    have hback : b = "/" ++ String.ofList rest := by
      rw [← String.toList_inj, hb]
      simp
    exact .dropped (by simpa using hlast) hback
  · next hlast hb =>
    have hhead := head?_ne_slash hb
    exact .met (iff_of_true (by simpa using hlast) hhead)
  · next hlast hb =>
    have hhead : ¬ b.toList.head? ≠ some '/' := by simp [hb]
    exact .met (iff_of_false (by simpa using hlast) hhead)
  · next hlast hb => exact .inserted (by simpa using hlast) (head?_ne_slash hb)

theorem Seam.exists_append {front back whole : String} (seam : Seam front back whole) :
    ∃ rest, whole = front ++ rest := by
  cases seam with
  | dropped => exact ⟨_, rfl⟩
  | inserted => exact ⟨"/" ++ back, String.append_assoc⟩
  | met => exact ⟨_, rfl⟩

theorem Seam.forall_mem {P : Char → Prop} {front back whole : String} (seam : Seam front back whole)
    (hfront : ∀ c ∈ front.toList, P c) (hback : ∀ c ∈ back.toList, P c) (slash : P '/') :
    ∀ c ∈ whole.toList, P c := by
  intro c hc
  cases seam with
  | dropped _ hrest =>
    simp only [String.toList_append, List.mem_append] at hc
    rcases hc with hc | hc
    · exact hfront c hc
    · refine hback c ?_
      simp [hrest, hc]
  | inserted =>
    simp only [String.toList_append, List.mem_append] at hc
    rcases hc with (hc | hc) | hc
    · exact hfront c hc
    · obtain rfl : c = '/' := by simpa using hc
      exact slash
    · exact hback c hc
  | met =>
    simp only [String.toList_append, List.mem_append] at hc
    exact hc.elim (hfront c) (hback c)

theorem joinSlash_slash (a : String) : joinSlash a "/" = joinSlash a "" := by
  unfold joinSlash
  cases a.toList.getLast? == some '/' <;> simp

/-! ### Queries -/

/-- The query of a target and then that of a request, or the one that there is. -/
inductive Merged (base incoming : Option String) : Option String → Prop
  | both {a b : String} :
    base = some a → a ≠ "" → incoming = some b → Merged base incoming (some (a ++ "&" ++ b))
  | own {a : String} : base = some a → a ≠ "" → incoming = none → Merged base incoming (some a)
  | given : (∀ a ∈ base, a = "") → Merged base incoming incoming

theorem exists_merged (base incoming : Option String) :
    ∃ query, Merged base incoming query ∧ (joinQuery base incoming).toList = Uri.tail query := by
  unfold joinQuery
  cases hown : base.filter (!·.isEmpty) with
  | none =>
    have hgiven : ∀ a ∈ base, a = "" := by simpa using Option.filter_eq_none_iff.mp hown
    refine ⟨incoming, .given hgiven, ?_⟩
    cases incoming <;> simp [Uri.tail]
  | some a =>
    obtain ⟨hbase, ha⟩ := Option.filter_eq_some_iff.mp hown
    have hne : a ≠ "" := by simpa using ha
    cases incoming with
    | none => exact ⟨some a, .own hbase hne rfl, by simp [Uri.tail]⟩
    | some b => exact ⟨some (a ++ "&" ++ b), .both hbase hne rfl, by simp [Uri.tail]⟩

theorem Merged.unmarked {base incoming query : Option String} (merged : Merged base incoming query)
    (hbase : ∀ q ∈ base, '#' ∉ q.toList) (hincoming : ∀ q ∈ incoming, '#' ∉ q.toList) :
    ∀ q ∈ query, '#' ∉ q.toList := by
  intro q hq
  cases merged with
  | @both a b ha _ hb =>
    obtain rfl := Option.some.inj hq
    have hfront := hbase a ha
    have hback := hincoming b hb
    simp [hfront, hback]
  | own ha =>
    obtain rfl := Option.some.inj hq
    exact hbase _ ha
  | given => exact hincoming q hq

/-! ### The address -/

section

variable {base : Url} {incoming u : Uri}

theorem authority_separable {host : String} (hhost : ∀ c ∈ host.toList, c ≠ '/' ∧ c ≠ '?' ∧ c ≠ '#')
    (port : Option Nat) : ∀ c ∈ (authority host port).toList, c ≠ '/' ∧ c ≠ '?' ∧ c ≠ '#' := by
  cases port with
  | none => exact hhost
  | some port =>
    have hport := Text.forall_mem_toString (P := fun c => c ≠ '/' ∧ c ≠ '?' ∧ c ≠ '#') (by decide) port
    intro c hc
    simp only [authority, String.toList_append, List.mem_append] at hc
    rcases hc with (hc | hc) | hc
    · exact hhost c hc
    · obtain rfl : c = ':' := by simpa using hc
      decide
    · exact hport c hc

theorem path_separable (separable : base.Separable) (proper : incoming.Proper) :
    ∃ rest, joinSlash base.path incoming.path = String.ofList ('/' :: rest) ∧
      ∀ c ∈ rest, c ≠ '?' ∧ c ≠ '#' := by
  have hseam := seam_joinSlash base.path incoming.path
  obtain ⟨front, hfront, hproper⟩ := separable.path
  obtain ⟨back, hback⟩ := hseam.exists_append
  have hpath : (joinSlash base.path incoming.path).toList = '/' :: (front ++ back.toList) := by
    rw [hback, hfront]
    simp
  refine ⟨front ++ back.toList, by rw [← hpath, String.ofList_toList], fun c hc => ?_⟩
  have hall := hseam.forall_mem (P := fun c => c ≠ '?' ∧ c ≠ '#')
    (by rw [hfront, String.toList_ofList]; exact List.forall_mem_cons.mpr ⟨by decide, hproper⟩)
    proper.path (by decide)
  exact hall c (hpath ▸ List.mem_cons_of_mem _ hc)

theorem scheme?_eq_some {scheme sent : String} (h : scheme? scheme = some sent) :
    (scheme ∈ ["http", "ws"] ∧ sent = "http" ∨ scheme ∈ ["https", "wss"] ∧ sent = "https") ∧
      Url.isSpecial scheme = true := by
  unfold scheme? at h
  split at h <;> cases h <;> decide

theorem parse_of_uri (h : uri base incoming = .ok u) :
    ∃ host scheme, base.host = some host ∧ scheme? base.scheme = some scheme ∧
      Uri.parse (scheme ++ "://" ++ authority host base.port ++ joinSlash base.path incoming.path ++
        joinQuery base.query incoming.query) = .ok u := by
  unfold uri at h
  split at h
  · cases h
  · cases h
  · next host scheme hhost hscheme =>
    refine ⟨host, scheme, hhost, hscheme, ?_⟩
    dsimp only at h
    split at h
    · next hparse =>
      obtain rfl := Except.ok.inj h
      exact hparse
    · cases h

theorem separable_of_uri {text : String} (target : Url.parse text = .ok base)
    (h : uri base incoming = .ok u) : base.Separable := by
  obtain ⟨_, _, -, hscheme, -⟩ := parse_of_uri h
  exact Url.separable_of_parse target (scheme?_eq_some hscheme).2

/-- The address that is written for a request, part by part. -/
def address (base : Url) (incoming : Uri) (host scheme : String) (query : Option String) : Uri :=
  { scheme := some scheme, authority := some (authority host base.port),
    rawPath := joinSlash base.path incoming.path, query }

theorem address_separable (separable : base.Separable) (read : incoming.Read) {host scheme : String}
    {query : Option String} (hhost : base.host = some host) (hscheme : scheme? base.scheme = some scheme)
    (merged : Merged base.query incoming.query query) :
    (address base incoming host scheme query).Separable where
  scheme := ⟨scheme, rfl, (scheme?_eq_some hscheme).1.imp And.right And.right⟩
  authority := ⟨_, rfl, authority_separable (separable.host host hhost) base.port⟩
  path := path_separable separable read.proper
  query := merged.unmarked separable.query read.query

theorem path_address (separable : base.Separable) (read : incoming.Read) (host scheme : String)
    (query : Option String) :
    (address base incoming host scheme query).path = joinSlash base.path incoming.path := by
  obtain ⟨rest, hrest, -⟩ := path_separable separable read.proper
  have hraw : (address base incoming host scheme query).rawPath = String.ofList ('/' :: rest) := hrest
  rw [Uri.path_eq_rawPath hraw]
  rfl

theorem text_address (separable : base.Separable) (read : incoming.Read) (host scheme : String)
    {query : Option String} (hquery : (joinQuery base.query incoming.query).toList = Uri.tail query) :
    (address base incoming host scheme query).text =
      scheme ++ "://" ++ authority host base.port ++ joinSlash base.path incoming.path ++
        joinQuery base.query incoming.query := by
  obtain ⟨rest, hrest, -⟩ := path_separable separable read.proper
  have htext := Uri.toList_text (u := address base incoming host scheme query) rfl rfl hrest
  rw [← String.toList_inj, htext]
  simp [hquery, hrest, address]

theorem eq_of_uri (separable : base.Separable) (read : incoming.Read) (h : uri base incoming = .ok u) :
    ∃ host scheme query, base.host = some host ∧ scheme? base.scheme = some scheme ∧
      Merged base.query incoming.query query ∧ u = address base incoming host scheme query := by
  obtain ⟨host, scheme, hhost, hscheme, hparse⟩ := parse_of_uri h
  obtain ⟨query, hmerged, hquery⟩ := exists_merged base.query incoming.query
  refine ⟨host, scheme, query, hhost, hscheme, hmerged, ?_⟩
  rw [← text_address separable read host scheme hquery] at hparse
  exact Uri.eq_of_parse_text (address_separable separable read hhost hscheme hmerged) hparse

theorem joinSlash_path (a : String) (incoming : Uri) :
    joinSlash a incoming.path =
      joinSlash a (if incoming.rawPath.isEmpty then "/" else incoming.rawPath) := by
  unfold Uri.path
  split
  · split
    · rfl
    · exact (joinSlash_slash a).symm
  · rfl

theorem uri_readdressed (base : Url) (incoming : Uri) (scheme authority : Option String) :
    uri base { incoming with scheme, authority } = uri base incoming := by
  unfold uri
  rw [joinSlash_path, joinSlash_path]

end

/-- A request that is forwarded goes to the host of the target, at its port if it has one, and under
its scheme. Only the path and the query are taken from the request, and they come after those of the
target. -/
theorem addresses_target {text : String} {base : Url} (target : Url.parse text = .ok base)
    {incoming : Uri} (arises : incoming.Arises) {u : Uri} (sendable : uri base incoming = .ok u) :
    (∃ host, base.host = some host ∧ u.authority = some (match base.port with
      | some port => host ++ ":" ++ toString port
      | none => host)) ∧
    (base.scheme ∈ ["http", "ws"] ∧ u.scheme = some "http" ∨
      base.scheme ∈ ["https", "wss"] ∧ u.scheme = some "https") ∧
    Seam base.path incoming.path u.path ∧
    Merged base.query incoming.query u.query ∧
    ∀ scheme authority, uri base { incoming with scheme, authority } = uri base incoming := by
  have hseparable := separable_of_uri target sendable
  obtain ⟨host, scheme, query, hhost, hscheme, hmerged, rfl⟩ :=
    eq_of_uri hseparable arises.isRead sendable
  refine ⟨⟨host, hhost, ?_⟩, ?_, ?_, hmerged, uri_readdressed base incoming⟩
  · change some (authority host base.port) = _
    cases base.port <;> rfl
  · obtain ⟨hbase, rfl⟩ | ⟨hbase, rfl⟩ := (scheme?_eq_some hscheme).1
    · exact .inl ⟨hbase, rfl⟩
    · exact .inr ⟨hbase, rfl⟩
  · rw [path_address hseparable arises.isRead]
    exact seam_joinSlash base.path incoming.path

def bracketed : Url :=
  { scheme := "ws", slashes := true, host := some "[::1]", port := some 8080, path := "/api/",
    query := some "k=1" }

def astray : Uri :=
  { scheme := some "https", authority := some "b.test:1", rawPath := "//c.test/x", query := some "q" }

theorem addresses_target_bracketed :
    Url.parse "ws://[::1]:8080/api/?k=1" = .ok bracketed ∧ astray.Arises ∧
      ∃ u, uri bracketed astray = .ok u ∧ u.authority = some "[::1]:8080" ∧ u.scheme = some "http" ∧
        Seam "/api/" "//c.test/x" u.path ∧ Merged (some "k=1") (some "q") u.query ∧
        uri bracketed { astray with scheme := none, authority := none } = .ok u := by
  have htarget : Url.parse "ws://[::1]:8080/api/?k=1" = .ok bracketed := by decide +kernel
  have hread : Uri.parse "https://b.test:1/a" = .ok { astray with rawPath := "/a", query := none } := by
    decide +kernel
  have harises : astray.Arises := .rewritten (.read hread)
    (show Uri.withPathAndQuery _ "//c.test/x?q" = .ok astray by decide +kernel)
  obtain ⟨u, hu⟩ : ∃ u, uri bracketed astray = .ok u :=
    ⟨{ scheme := some "http", authority := some "[::1]:8080", rawPath := "/api//c.test/x",
       query := some "k=1&q" }, by decide +kernel⟩
  obtain ⟨⟨host, hhost, hauthority⟩, hscheme, hpath, hquery, hother⟩ :=
    addresses_target htarget harises hu
  obtain rfl : "[::1]" = host := Option.some.inj hhost
  refine ⟨htarget, harises, u, hu, hauthority, ?_, hpath, hquery, (hother none none).trans hu⟩
  obtain ⟨-, hscheme⟩ | ⟨hbase, -⟩ := hscheme
  · exact hscheme
  · exact absurd hbase (by decide)

end Outbound

end Gateway
