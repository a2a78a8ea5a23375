import Gateway.Http.Uri
import Mathlib.Data.List.TakeWhile

/-! URIs that were read from a text: no part of them has a character in it that ends the part. A
text that starts with a slash is read as a path as it stands, and what is written of such parts is
read back as it was. -/

namespace Gateway

theorem bind_eq_ok {ε α β : Type} {x : Except ε α} {f : α → Except ε β} {b : β}
    (h : x >>= f = .ok b) : ∃ a, x = .ok a ∧ f a = .ok b := by
  cases x with
  | error e => cases h
  | ok a => exact ⟨a, rfl, h⟩

namespace Uri

/-- The path has neither of the characters that end a path. -/
def Proper (u : Uri) : Prop := ∀ c ∈ u.rawPath.toList, c ≠ '?' ∧ c ≠ '#'

theorem Proper.path {u : Uri} (h : u.Proper) : ∀ c ∈ u.path.toList, c ≠ '?' ∧ c ≠ '#' := by
  unfold Uri.path
  split
  · split <;> simp
  · exact h

theorem path_eq_rawPath {u : Uri} {rest : List Char} (h : u.rawPath = String.ofList ('/' :: rest)) :
    u.path = u.rawPath := by
  unfold Uri.path
  rw [if_neg]
  simp [h]

/-! ### What is read -/

theorem parsePathAndQuery_eq_ok {s : List Char} {path : String} {query : Option String}
    (h : parsePathAndQuery s = .ok (path, query)) :
    path = String.ofList (s.takeWhile fun c => c != '?' && c != '#') ∧
      ∀ q ∈ query, '#' ∉ q.toList := by
  unfold parsePathAndQuery at h
  dsimp only at h
  split at h
  · cases h
  · split at h
    · next rest _ =>
      split at h
      · cases h
        refine ⟨rfl, ?_⟩
        intro q hq hmem
        obtain rfl := Option.some.inj hq
        rw [String.toList_ofList] at hmem
        exact absurd (List.mem_takeWhile_imp hmem) (by decide)
      · cases h
    · cases h
      exact ⟨rfl, nofun⟩

theorem proper_of_parsePathAndQuery {s : List Char} {path : String} {query : Option String}
    (h : parsePathAndQuery s = .ok (path, query)) : ∀ c ∈ path.toList, c ≠ '?' ∧ c ≠ '#' := by
  intro c hc
  rw [(parsePathAndQuery_eq_ok h).1, String.toList_ofList] at hc
  simpa using List.mem_takeWhile_imp hc

/-- A path and a query that were read, or a path that stands for none. -/
def Read (u : Uri) : Prop :=
  u.rawPath ∈ ["", "*", "/"] ∧ u.query = none ∨ ∃ s, parsePathAndQuery s = .ok (u.rawPath, u.query)

theorem Read.proper {u : Uri} (read : u.Read) : u.Proper := by
  obtain ⟨hpath, -⟩ | ⟨s, h⟩ := read
  · have hbare : ∀ path ∈ ["", "*", "/"], ∀ c ∈ path.toList, c ≠ '?' ∧ c ≠ '#' := by simp
    exact hbare _ hpath
  · exact proper_of_parsePathAndQuery h

theorem Read.query {u : Uri} (read : u.Read) : ∀ q ∈ u.query, '#' ∉ q.toList := by
  obtain ⟨-, hquery⟩ | ⟨s, h⟩ := read
  · rw [hquery]
    nofun
  · exact (parsePathAndQuery_eq_ok h).2

theorem read_of_parseFull {s : List Char} {u : Uri} (h : parseFull s = .ok u) : u.Read := by
  obtain ⟨_ | ⟨scheme, rest⟩, -, h⟩ := bind_eq_ok h
  · obtain ⟨⟨authority, rest⟩, -, h⟩ := bind_eq_ok h
    dsimp only at h
    split at h
    · cases h
      exact .inl ⟨by simp, rfl⟩
    · cases h
  · obtain ⟨⟨authority, rest⟩, -, h⟩ := bind_eq_ok h
    dsimp only at h
    split at h
    · cases h
    · obtain ⟨⟨path, query⟩, hpath, h⟩ := bind_eq_ok h
      cases h
      exact .inr ⟨_, hpath⟩

theorem read_of_parse {text : String} {u : Uri} (h : parse text = .ok u) : u.Read := by
  unfold parse at h
  split at h
  · cases h
  · split at h
    · cases h
    · cases h
      exact .inl ⟨by simp, rfl⟩
    · split at h
      · cases h
        exact .inl ⟨by simp, rfl⟩
      · obtain ⟨⟨authority, rest⟩, -, h⟩ := bind_eq_ok h
        dsimp only at h
        split at h
        · cases h
          exact .inl ⟨by simp, rfl⟩
        · cases h
    · obtain ⟨⟨path, query⟩, hpath, h⟩ := bind_eq_ok h
      cases h
      exact .inr ⟨_, hpath⟩
    · exact read_of_parseFull h

theorem proper_of_parse {text : String} {u : Uri} (h : parse text = .ok u) : u.Proper :=
  (read_of_parse h).proper

theorem read_of_withPathAndQuery {u v : Uri} {text : String}
    (h : u.withPathAndQuery text = .ok v) : v.Read := by
  dsimp only [withPathAndQuery] at h
  split at h
  · cases h
  · obtain ⟨⟨path, query⟩, hpath, h⟩ := bind_eq_ok h
    dsimp only at h
    split at h
    · cases h
    · cases h
      exact .inr ⟨_, hpath⟩

/-- The URIs that a request can have when it is forwarded: those that are read from a text, and
those that have another path and query put in place of theirs. -/
inductive Arises : Uri → Prop
  | read {text : String} {u : Uri} : parse text = .ok u → Arises u
  | rewritten {u v : Uri} {text : String} :
    Arises u → u.withPathAndQuery text = .ok v → Arises v

theorem Arises.isRead {u : Uri} (h : u.Arises) : u.Read := by
  cases h with
  | read h => exact read_of_parse h
  | rewritten _ h => exact read_of_withPathAndQuery h

theorem takeWhile_path {path tail : List Char} (proper : ∀ c ∈ path, c ≠ '?' ∧ c ≠ '#')
    (ends : tail = [] ∨ ∃ q, tail = '?' :: q) :
    (path ++ tail).takeWhile (fun c => c != '?' && c != '#') = path := by
  have hpath : ∀ c ∈ path, (c != '?' && c != '#') = true := by simpa using proper
  rw [List.takeWhile_append_of_pos hpath]
  rcases ends with rfl | ⟨q, rfl⟩ <;> simp

theorem path_of_parse {rest tail : List Char} (proper : ∀ c ∈ rest, c ≠ '?' ∧ c ≠ '#')
    (htail : tail = [] ∨ ∃ q, tail = '?' :: q) {u : Uri}
    (h : parse (String.ofList ('/' :: rest ++ tail)) = .ok u) :
    u.path = String.ofList ('/' :: rest) := by
  have htake : ('/' :: rest ++ tail).takeWhile (fun c => c != '?' && c != '#') = '/' :: rest :=
    takeWhile_path (List.forall_mem_cons.mpr ⟨by decide, proper⟩) htail
  have hraw : u.rawPath = String.ofList ('/' :: rest) := by
    unfold parse at h
    rw [String.toList_ofList] at h
    split at h
    · cases h
    · cases hcs : rest ++ tail with
      | nil =>
        obtain rfl : rest = [] := (List.append_eq_nil_iff.mp hcs).1
        rw [List.cons_append, hcs] at h
        cases h
        rfl
      | cons c cs =>
        rw [List.cons_append, hcs] at h htake
        obtain ⟨⟨path, query⟩, hpath, h⟩ := bind_eq_ok h
        cases h
        rw [(parsePathAndQuery_eq_ok hpath).1, htake]
  rw [path_eq_rawPath hraw, hraw]

theorem origin_of_parse {rest : List Char} {u : Uri}
    (h : parse (String.ofList ('/' :: rest)) = .ok u) : u.scheme = none ∧ u.authority = none := by
  unfold parse at h
  rw [String.toList_ofList] at h
  split at h
  · cases h
  · cases rest with
    | nil =>
      cases h
      exact ⟨rfl, rfl⟩
    | cons c cs =>
      obtain ⟨⟨path, query⟩, -, h⟩ := bind_eq_ok h
      cases h
      exact ⟨rfl, rfl⟩

/-! ### What is written -/

theorem takeScheme_of_known {scheme : String} (known : scheme = "http" ∨ scheme = "https")
    (rest : List Char) :
    takeScheme (scheme.toList ++ "://".toList ++ rest) = .ok (some (scheme, rest)) := by
  rcases known with rfl | rfl <;> rfl

def tail (query : Option String) : List Char := (query.map fun q => '?' :: q.toList).getD []

theorem takeAuthority_append {authority rest : List Char}
    (proper : ∀ c ∈ authority, c ≠ '/' ∧ c ≠ '?' ∧ c ≠ '#') {r : List Char × List Char}
    (h : takeAuthority (authority ++ '/' :: rest) = .ok r) : r = (authority, '/' :: rest) := by
  have hauthority : ∀ c ∈ authority, (c != '/' && c != '?' && c != '#') = true := by
    simpa [and_assoc] using proper
  have htake : (authority ++ '/' :: rest).takeWhile (fun c => c != '/' && c != '?' && c != '#') =
      authority := by
    rw [List.takeWhile_append_of_pos hauthority]
    simp
  unfold takeAuthority at h
  rw [htake] at h
  dsimp only at h
  rw [List.drop_left] at h
  split at h
  · cases h
  · split at h
    · cases h
    · exact (Except.ok.inj h).symm

theorem parsePathAndQuery_append {path : List Char} {query : Option String}
    (proper : ∀ c ∈ path, c ≠ '?' ∧ c ≠ '#') (unmarked : ∀ q ∈ query, '#' ∉ q.toList)
    {r : String × Option String} (h : parsePathAndQuery (path ++ tail query) = .ok r) :
    r = (String.ofList path, query) := by
  have htake : (path ++ tail query).takeWhile (fun c => c != '?' && c != '#') = path := by
    refine takeWhile_path proper ?_
    cases query with
    | none => exact .inl rfl
    | some q => exact .inr ⟨q.toList, rfl⟩
  unfold parsePathAndQuery at h
  rw [htake] at h
  dsimp only at h
  rw [List.drop_left] at h
  split at h
  · cases h
  · cases query with
    | none => exact (Except.ok.inj h).symm
    | some q =>
      have hq : q.toList.takeWhile (· != '#') = q.toList := by
        rw [List.takeWhile_eq_self_iff]
        intro c hc
        simpa using ne_of_mem_of_not_mem hc (unmarked q rfl)
      simp only [tail, Option.map_some, Option.getD_some, hq, String.ofList_toList] at h
      split at h
      · exact (Except.ok.inj h).symm
      · cases h

/-- An absolute URI, none of whose parts has a character in it that ends the part. -/
structure Separable (u : Uri) : Prop where
  scheme : ∃ scheme, u.scheme = some scheme ∧ (scheme = "http" ∨ scheme = "https")
  authority : ∃ authority, u.authority = some authority ∧
    ∀ c ∈ authority.toList, c ≠ '/' ∧ c ≠ '?' ∧ c ≠ '#'
  path : ∃ rest, u.rawPath = String.ofList ('/' :: rest) ∧ ∀ c ∈ rest, c ≠ '?' ∧ c ≠ '#'
  query : ∀ query ∈ u.query, '#' ∉ query.toList

theorem toList_text {u : Uri} {scheme authority : String} {rest : List Char}
    (hscheme : u.scheme = some scheme) (hauthority : u.authority = some authority)
    (hpath : u.rawPath = String.ofList ('/' :: rest)) :
    u.text.toList = scheme.toList ++ "://".toList ++
      (authority.toList ++ '/' :: (rest ++ tail u.query)) := by
  rw [text, path_eq_rawPath hpath, hpath, hscheme, hauthority]
  cases u.query <;> simp [tail]

theorem parseFull_of_parse {text : String} {u : Uri} (h : parse text = .ok u) {c d : Char}
    {cs : List Char} (htext : text.toList = c :: d :: cs) (hc : c ≠ '/') :
    parseFull text.toList = .ok u := by
  unfold parse at h
  split at h
  · cases h
  · split at h
    · next hnil => simp [hnil] at htext
    · next hstar => simp [hstar] at htext
    · next hone => simp [hone] at htext
    · next hslash =>
      rw [hslash] at htext
      exact absurd (List.cons.inj htext).1.symm hc
    · exact h

theorem eq_of_parse_text {u v : Uri} (separable : u.Separable) (h : parse u.text = .ok v) : v = u := by
  obtain ⟨scheme, hscheme, known⟩ := separable.scheme
  obtain ⟨authority, hauthority, hends⟩ := separable.authority
  obtain ⟨rest, hpath, hproper⟩ := separable.path
  have htext := toList_text hscheme hauthority hpath
  have hfull : parseFull u.text.toList = .ok v := by
    rcases known with rfl | rfl <;> exact parseFull_of_parse h htext (by decide)
  rw [htext] at hfull
  obtain ⟨r, hr, hfull⟩ := bind_eq_ok hfull
  obtain rfl := Except.ok.inj ((takeScheme_of_known known _).symm.trans hr)
  obtain ⟨r, hr, hfull⟩ := bind_eq_ok hfull
  obtain rfl := takeAuthority_append hends hr
  dsimp only at hfull
  split at hfull
  · cases hfull
  · obtain ⟨r, hr, hfull⟩ := bind_eq_ok hfull
    have hwritten : ∀ c ∈ '/' :: rest, c ≠ '?' ∧ c ≠ '#' :=
      List.forall_mem_cons.mpr ⟨by decide, hproper⟩
    obtain rfl := parsePathAndQuery_append hwritten separable.query hr
    obtain rfl := Except.ok.inj hfull
    dsimp only
    rw [String.ofList_toList, ← hscheme, ← hauthority, ← hpath]

end Uri

end Gateway
