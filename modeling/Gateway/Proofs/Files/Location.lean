import Gateway.Proofs.Files.Names
import Gateway.Proofs.Http.Headers

/-! Where a client is sent that asks for a directory: to the path that was passed on to the file
server, with a slash at the end. The path that the client asked for has no part in it. -/

namespace Gateway

namespace FileServer

/-- A request for a directory below the root without a slash at the end. -/
def ForDirectory (s : FileServer) (root : List String) (r : Request) : Prop :=
  r.uri.path.toList.getLast? ≠ some '/' ∧
    ∃ names, names? r.uri.path = some names ∧ s.HasDirectory (root ++ names)

/-- A client is sent somewhere else for such a request only, to the same path with a slash. -/
structure Redirects (s : FileServer) (root : List String) : Prop where
  directory : ∀ r, s.ForDirectory root r → (s.answer r).status = .temporaryRedirect ∧
    (s.answer r).headers.getAll "location" =
      [.ofText (Uri.text { r.uri with rawPath := r.uri.path ++ "/" })]
  otherwise : ∀ r, ¬ s.ForDirectory root r → (s.answer r).headers.getAll "location" = []

theorem getAll_content (name : String) (bytes : Bytes) (r : Request) :
    (content name bytes r).headers.getAll "location" = [] := by
  unfold content
  dsimp only
  split
  · rfl
  · split <;> rfl

theorem getAll_file (t : FileTree) (names : List String) (r : Request) :
    (file t names r).headers.getAll "location" = [] := by
  unfold file
  split
  · exact getAll_content _ _ r
  · rfl

theorem redirects_ofTree (t : FileTree) (root : List String) :
    (ofTree t root).Redirects root where
  directory r := by
    rintro ⟨hslash, names, hnames, hdirectory⟩
    have hredirect : serve t root r = redirect r.uri := by
      simp [serve, hnames, hasDirectory_ofTree.mp hdirectory, hslash]
    change (serve t root r).status = _ ∧ (serve t root r).headers.getAll _ = _
    rw [hredirect]
    exact ⟨rfl, rfl⟩
  otherwise r hnot := by
    change (serve t root r).headers.getAll _ = _
    unfold serve
    split
    · rfl
    · next names hnames =>
      dsimp only
      split
      · next hdirectory =>
        have hslash : r.uri.path.toList.getLast? = some '/' := by
          by_contra hne
          exact hnot ⟨hne, names, hnames, hasDirectory_ofTree.mpr hdirectory⟩
        rw [if_pos hslash]
        exact getAll_file _ _ _
      · exact getAll_file _ _ _

end FileServer

namespace StaticFiles

def location (raw : String) : String := String.ofList ('/' :: (bare raw ++ ['/']))

/-- A parameter that names a directory below the root without a slash at the end. -/
structure Unslashed (raw : String) : Prop where
  nonempty : bare raw ≠ []
  unended : (bare raw).getLast? ≠ some '/'
  relative : Relative raw

theorem text_location {raw : String} {u : Uri} (path : u.path = String.ofList ('/' :: bare raw))
    (scheme : u.scheme = none) (authority : u.authority = none) :
    Uri.text { u with rawPath := u.path ++ "/" } =
      location raw ++ String.ofList (Uri.tail u.query) := by
  have hslash : u.path ++ "/" = location raw := by
    rw [path, location]
    apply String.toList_injective
    simp
  have hpath : Uri.path { u with rawPath := u.path ++ "/" } = location raw :=
    (Uri.path_eq_rawPath hslash).trans hslash
  unfold Uri.text
  rw [hpath, scheme, authority]
  apply String.toList_injective
  cases u.query <;> simp [Uri.tail]

theorem forDirectory_iff {s : FileServer} {root : List String} {raw : String} {path : FilePath}
    (tested : tested? root raw = some path) (directory : s.entry? path = some .directory)
    (proper : ∀ c ∈ raw.toList, c ≠ '?' ∧ c ≠ '#') {r : Request} {uri : Uri}
    (passed : delegatedUri? raw uri = some r.uri) : s.ForDirectory root r ↔ Unslashed raw := by
  obtain ⟨f, hf, level, hnames⟩ := exists_of_tested? tested
  obtain ⟨hpath, -, -⟩ := parts_of_delegatedUri? proper passed
  obtain ⟨hsome, hnone⟩ := names?_eq hf level (path_of_delegatedUri? proper passed)
  have hends : r.uri.path.toList.getLast? = some '/' ↔
      bare raw = [] ∨ (bare raw).getLast? = some '/' := by
    rw [hpath, String.toList_ofList]
    cases bare raw <;> simp
  constructor
  · rintro ⟨hslash, names, hnames, -⟩
    obtain ⟨hne, hlast⟩ := not_or.mp (mt hends.mpr hslash)
    refine ⟨hne, hlast, by_contra fun hrelative => ?_⟩
    rw [hnone hrelative] at hnames
    cases hnames
  · intro h
    refine ⟨fun hslash => (hends.mp hslash).elim h.nonempty h.unended, names f, hsome h.relative, ?_⟩
    exact ⟨path, hnames, directory⟩

end StaticFiles

end Gateway
