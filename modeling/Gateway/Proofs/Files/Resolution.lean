import Gateway.Handler.StaticFiles
import Gateway.Proofs.Http.Uri
import Gateway.Proofs.Route.Captures
import Mathlib.Data.List.DropRight

/-! The file that a parameter stands for, and the one that the file server finds under the path
that is passed on to it: both read the same text, one before and one after it is decoded. -/

namespace Gateway

/-! ### Parts of a path -/

/-- The name of a file or a directory, and nothing else. -/
structure PathPart.Plain (name : String) : Prop where
  nonempty : name ≠ ""
  not_here : name ≠ "."
  not_up : name ≠ ".."
  single : '/' ∉ name.toList

namespace PathPart

theorem read_cases (first : Bool) (part : List Char) :
    (part = [] ∧ ofText.read first part = []) ∨
    (part = ['.'] ∧ ofText.read first part = if first then [here] else []) ∨
    (part = ['.', '.'] ∧ ofText.read first part = [up]) ∨
    (part ≠ [] ∧ part ≠ ['.'] ∧ part ≠ ['.', '.'] ∧
      ofText.read first part = [normal (String.ofList part)]) := by
  unfold ofText.read
  by_cases h₀ : part = []
  · simp [h₀]
  by_cases h₁ : part = ['.']
  · simp [h₁]
  by_cases h₂ : part = ['.', '.']
  · simp [h₂]
  · simp [h₀, h₁, h₂]

theorem mem_ofText {path : List Char} {x : PathPart} (h : x ∈ ofText path) :
    ∃ first, ∃ part ∈ Text.pieces '/' path, x ∈ ofText.read first part := by
  unfold ofText at h
  cases hp : Text.pieces '/' path with
  | nil => exact absurd hp (Text.pieces_ne_nil '/' path)
  | cons first rest =>
    rw [hp] at h
    rcases List.mem_append.mp h with h | h
    · exact ⟨true, first, List.mem_cons_self, h⟩
    · obtain ⟨part, hpart, h⟩ := List.mem_flatMap.mp h
      exact ⟨false, part, List.mem_cons_of_mem _ hpart, h⟩

theorem plain_names (path : List Char) : ∀ name ∈ (ofText path).filterMap name?, Plain name := by
  intro name hname
  obtain ⟨x, hx, hn⟩ := List.mem_filterMap.mp hname
  obtain ⟨first, part, hpart, hx⟩ := mem_ofText hx
  rcases read_cases first part with ⟨-, h⟩ | ⟨-, h⟩ | ⟨-, h⟩ | ⟨h₀, h₁, h₂, h⟩ <;> rw [h] at hx
  · simp at hx
  · cases first <;> simp at hx
    subst hx
    cases hn
  · obtain rfl := List.mem_singleton.mp hx
    cases hn
  · obtain rfl := List.mem_singleton.mp hx
    obtain rfl : String.ofList part = name := by simpa [name?] using hn
    refine ⟨?_, ?_, ?_, ?_⟩
    · simpa using h₀
    · exact fun he => h₁ (by simpa using congrArg String.toList he)
    · exact fun he => h₂ (by simpa using congrArg String.toList he)
    · simpa using (Text.mem_pieces hpart).2

theorem read_normal_iff (first : Bool) (part : List Char) :
    (ofText.read first part).all (·.name?.isSome) = true ↔
      ['.', '.'] ≠ part ∧ (first = true → part ≠ ['.']) := by
  rcases read_cases first part with ⟨rfl, h⟩ | ⟨rfl, h⟩ | ⟨rfl, h⟩ | ⟨-, hne', hne, h⟩
  · simp [h]
  · cases first <;> simp [h, name?]
  · simp [h, name?]
  · simp [h, name?, hne.symm, hne']

theorem all_normal_iff (path : List Char) :
    (ofText path).all (·.name?.isSome) = true ↔
      ['.', '.'] ∉ Text.pieces '/' path ∧ (Text.pieces '/' path).head? ≠ some ['.'] := by
  unfold ofText
  cases hp : Text.pieces '/' path with
  | nil => exact absurd hp (Text.pieces_ne_nil '/' path)
  | cons first rest =>
    have hrest : (rest.flatMap (ofText.read false)).all (·.name?.isSome) = true ↔
        ['.', '.'] ∉ rest := by
      rw [List.all_flatMap, List.all_eq_true]
      simp only [read_normal_iff, Bool.false_eq_true, false_implies, and_true]
      exact ⟨fun h hm => h _ hm rfl, fun h part hm he => h (he ▸ hm)⟩
    dsimp only
    rw [List.all_append, Bool.and_eq_true, read_normal_iff, hrest]
    simp only [List.mem_cons, not_or, List.head?_cons, ne_eq, Option.some.injEq, forall_const]
    tauto

end PathPart

/-! ### Decoding -/

theorem Percent.decode_slash (bytes : Bytes) : decode (0x2F :: bytes) = 0x2F :: decode bytes := by
  rw [decode]
  simp

theorem Utf8.scan_slash (bytes : Bytes) : scan (0x2F :: bytes) = some '/' :: scan bytes := by
  rw [scan]
  rfl

namespace StaticFiles

theorem decode?_slash (cs : List Char) :
    decode? (String.ofList ('/' :: cs)) =
      (decode? (String.ofList cs)).map fun s => String.ofList ('/' :: s.toList) := by
  have hencode : Utf8.encode (String.ofList ('/' :: cs)) =
      0x2F :: Utf8.encode (String.ofList cs) := by
    simp only [Utf8.encode, String.toList_ofList, List.flatMap_cons]
    rfl
  simp only [decode?, hencode, Percent.decode_slash, Utf8.decode?, Utf8.scan_slash]
  cases h : (Utf8.scan (Percent.decode (Utf8.encode (String.ofList cs)))).mapM id with
  | none => simp [h]
  | some text => simp [h]

def relative? (raw : String) : Option (List Char) :=
  (decode? raw).map fun s => s.toList.dropWhile (· == '/')

theorem relative?_dropWhile (raw : List Char) :
    relative? (String.ofList (raw.dropWhile (· == '/'))) = relative? (String.ofList raw) := by
  induction raw with
  | nil => rfl
  | cons c cs ih =>
    by_cases hc : c = '/'
    · -- a slash stands for itself, so it is dropped after decoding as well
      subst hc
      rw [List.dropWhile_cons_of_pos (by simp), ih, relative?, relative?, decode?_slash,
        Option.map_map]
      congr 1
      funext s
      simp
    · rw [List.dropWhile_cons_of_neg (by simpa using hc)]

/-- What a parameter must not be: no text, or one that leads up somewhere, or one that starts with
a dot as its first component. -/
def Refused (raw : String) : Prop :=
  ∀ f, relative? raw = some f →
    ['.', '.'] ∈ Text.pieces '/' f ∨ (Text.pieces '/' f).head? = some ['.']

def names (f : List Char) : List String := (PathPart.ofText f).filterMap PathPart.name?

def tested? (root : List String) (raw : String) : Option FilePath :=
  (decode? raw).bind (resolve? root)

theorem resolve?_eq (root : List String) (file : String) :
    let f := file.toList.dropWhile (· == '/')
    resolve? root file =
      if (PathPart.ofText f).all (·.name?.isSome) then
        some ⟨root ++ names f,
          (Text.pieces '/' f).getLastD [] = [] || (Text.pieces '/' f).getLastD [] = ['.']⟩
      else none := rfl

theorem tested?_eq_none_iff (root : List String) (raw : String) :
    tested? root raw = none ↔ Refused raw := by
  unfold tested? Refused relative?
  cases decode? raw with
  | none => simp
  | some file =>
    have hall := PathPart.all_normal_iff (file.toList.dropWhile (· == '/'))
    simp only [Option.bind_some, Option.map_some, Option.some.injEq, forall_eq', resolve?_eq,
      ite_eq_right_iff, reduceCtorEq, imp_false, hall]
    tauto

theorem exists_of_tested? {root : List String} {raw : String} {path : FilePath}
    (h : tested? root raw = some path) :
    ∃ f, relative? raw = some f ∧ .up ∉ PathPart.ofText f ∧ path.names = root ++ names f := by
  obtain ⟨file, hfile, hresolve⟩ := Option.bind_eq_some_iff.mp h
  rw [resolve?_eq] at hresolve
  split at hresolve
  · next hall =>
    cases hresolve
    refine ⟨_, by rw [relative?, hfile]; rfl, fun hup => ?_, rfl⟩
    exact absurd (List.all_eq_true.mp hall _ hup) (by decide)
  · cases hresolve

theorem delegated?_eq (s : FileServer) (root : List String) (raw : String) (r : Request) :
    delegated? s root raw r = (tested? root raw).bind fun path =>
      (s.entry? path).bind fun _ => (delegatedUri? raw r.uri).map fun uri => { r with uri } := by
  unfold delegated? tested?
  cases decode? raw with
  | none => rfl
  | some file =>
    cases h : resolve? root file with
    | none => simp [h]
    | some path =>
      cases hentry : s.entry? path with
      | none => simp [h, hentry]
      | some entry => cases delegatedUri? raw r.uri <;> simp [h, hentry]

theorem delegated?_of_refused {raw : String} (h : Refused raw) (s : FileServer) (root : List String)
    (r : Request) : delegated? s root raw r = none := by
  rw [delegated?_eq, (tested?_eq_none_iff root raw).mpr h]
  rfl

/-! ### The path that is passed on -/

def bare (raw : String) : List Char := raw.toList.dropWhile (· == '/')

theorem bare_subset (raw : String) : bare raw ⊆ raw.toList := List.dropWhile_subset _

/-- No encoded slash comes first in a parameter. -/
def Relative (raw : String) : Prop :=
  ∀ s, decode? (String.ofList (bare raw)) = some s → s.toList.head? ≠ some '/'

theorem relative?_bare (raw : String) : relative? (String.ofList (bare raw)) = relative? raw := by
  rw [bare, relative?_dropWhile, String.ofList_toList]

theorem tested?_eq (root : List String) (raw : String) : tested? root raw =
    (relative? raw).bind fun f => resolve? root (String.ofList f) := by
  unfold tested? relative?
  cases decode? raw with
  | none => rfl
  | some file => simp [resolve?_eq, List.dropWhile_idempotent]

theorem tested?_bare (root : List String) (raw : String) :
    tested? root (String.ofList (bare raw)) = tested? root raw := by
  rw [tested?_eq, tested?_eq, relative?_bare]

theorem names?_eq {raw : String} {f : List Char} (hf : relative? raw = some f)
    (level : .up ∉ PathPart.ofText f) {path : String}
    (hpath : path.toList.dropWhile (· == '/') = bare raw) :
    (Relative raw → FileServer.names? path = some (names f)) ∧
    (¬ Relative raw → FileServer.names? path = none) := by
  rw [← relative?_bare] at hf
  obtain ⟨s, hs, rfl⟩ := Option.map_eq_some_iff.mp hf
  have hrelative : Relative raw ↔ s.toList.head? ≠ some '/' := by simp [Relative, hs]
  unfold FileServer.names?
  rw [hpath, show Utf8.decode? _ = some s from hs, hrelative]
  constructor
  · intro hhead
    have hsame : s.toList.dropWhile (· == '/') = s.toList := by
      cases hcs : s.toList with
      | nil => rfl
      | cons c cs =>
        rw [hcs] at hhead
        exact List.dropWhile_cons_of_neg (by simpa using hhead)
    rw [hsame] at level ⊢
    simp [hhead, level, names]
  · intro habsolute
    simp [not_not.mp habsolute]

/-- The file server is led through the same names, or nowhere at all. -/
theorem names?_of_relative? {raw : String} {f : List Char} (hf : relative? raw = some f)
    (level : .up ∉ PathPart.ofText f) {path : String}
    (hpath : path.toList.dropWhile (· == '/') = bare raw) :
    FileServer.names? path = none ∨ FileServer.names? path = some (names f) :=
  (Classical.em (Relative raw)).symm.imp (names?_eq hf level hpath).2 (names?_eq hf level hpath).1

theorem parse_of_delegatedUri? {raw : String} {uri u : Uri} (h : delegatedUri? raw uri = some u) :
    ∃ tail : List Char, (tail = [] ∨ ∃ q, tail = '?' :: q) ∧
      Uri.parse (String.ofList ('/' :: bare raw ++ tail)) = .ok u := by
  unfold delegatedUri? at h
  rw [← bare] at h
  generalize bare raw = dropped at h ⊢
  have hpath : "/" ++ String.ofList dropped = String.ofList ('/' :: dropped ++ []) :=
    String.toList_injective (by simp)
  have hquery : ∀ q : String, "/" ++ String.ofList dropped ++ "?" ++ q =
      String.ofList ('/' :: dropped ++ '?' :: q.toList) :=
    fun q => String.toList_injective (by simp)
  cases hq : uri.query with
  | none =>
    simp only [hq, hpath] at h
    split at h
    · next hparse => exact ⟨[], .inl rfl, hparse.trans (congrArg Except.ok (Option.some.inj h))⟩
    · cases h
  | some q =>
    simp only [hq, hquery] at h
    split at h
    · next hparse =>
      exact ⟨_, .inr ⟨q.toList, rfl⟩, hparse.trans (congrArg Except.ok (Option.some.inj h))⟩
    · cases h

theorem parts_of_delegatedUri? {raw : String} (proper : ∀ c ∈ raw.toList, c ≠ '?' ∧ c ≠ '#')
    {uri u : Uri} (h : delegatedUri? raw uri = some u) :
    u.path = String.ofList ('/' :: bare raw) ∧ u.scheme = none ∧ u.authority = none := by
  have hbare : ∀ c ∈ bare raw, c ≠ '?' ∧ c ≠ '#' := fun c hc => proper c (bare_subset raw hc)
  obtain ⟨tail, htail, hparse⟩ := parse_of_delegatedUri? h
  exact ⟨Uri.path_of_parse hbare htail hparse, Uri.origin_of_parse hparse⟩

theorem path_of_delegatedUri? {raw : String} (proper : ∀ c ∈ raw.toList, c ≠ '?' ∧ c ≠ '#')
    {uri u : Uri} (h : delegatedUri? raw uri = some u) :
    u.path.toList.dropWhile (· == '/') = bare raw := by
  obtain ⟨hpath, -, -⟩ := parts_of_delegatedUri? proper h
  rw [hpath, String.toList_ofList, List.dropWhile_cons_of_pos (by rfl), bare,
    List.dropWhile_idempotent]

end StaticFiles

namespace FileServer

/-- What is at a place is a directory. -/
def HasDirectory (s : FileServer) (names : List String) : Prop :=
  ∃ path : FilePath, path.names = names ∧ s.entry? path = some .directory

/-- An answer is only ever made of the file that the path of the request leads to below the root, or of
the index file of the directory there. -/
def Resolves (s : FileServer) (root : List String) : Prop :=
  ∀ r file, s.served? r = some file → ∃ names, names? r.uri.path = some names ∧
    (file = root ++ names ∨ s.HasDirectory (root ++ names) ∧ file = root ++ names ++ ["index.html"])

theorem hasDirectory_ofTree {t : FileTree} {root names : List String} :
    (ofTree t root).HasDirectory names ↔ t.isDirectory names = true := by
  constructor
  · rintro ⟨path, rfl, h⟩
    change t.entry? path = _ at h
    unfold FileTree.entry? at h
    split at h
    · assumption
    · split at h
      · cases h
      · simp at h
  · exact fun h => ⟨⟨names, true⟩, rfl, if_pos h⟩

theorem resolves_ofTree (t : FileTree) (root : List String) : (ofTree t root).Resolves root := by
  intro r file h
  obtain ⟨h, -⟩ := Option.filter_eq_some_iff.mp (show fileFor? t root r = some file from h)
  unfold place? at h
  cases hnames : names? r.uri.path with
  | none => simp [hnames] at h
  | some names =>
    refine ⟨names, rfl, ?_⟩
    by_cases hdirectory : t.isDirectory (root ++ names) = true
    · obtain ⟨-, rfl⟩ := by simpa [hnames, hdirectory] using h
      exact .inr ⟨hasDirectory_ofTree.mpr hdirectory, (List.append_assoc _ _ _).symm⟩
    · obtain rfl := by simpa [hnames, hdirectory] using h
      exact .inl rfl

/-- An answer has the content of the file that it is made of, or it is made of none. -/
theorem serve_cases (t : FileTree) (root : List String) (r : Request) :
    (∃ names bytes, fileFor? t root r = some names ∧ t.file? names = some bytes ∧
      serve t root r = content (names.getLastD "") bytes r) ∨
    fileFor? t root r = none ∧ (serve t root r = notFound ∨ serve t root r = redirect r.uri) := by
  have hfile (names : List String) (hplace : place? t root r = some names)
      (hserve : serve t root r = FileServer.file t names r) :
      (∃ names bytes, fileFor? t root r = some names ∧ t.file? names = some bytes ∧
        serve t root r = content (names.getLastD "") bytes r) ∨
      fileFor? t root r = none ∧ (serve t root r = notFound ∨ serve t root r = redirect r.uri) := by
    rw [fileFor?, hplace, hserve, FileServer.file]
    cases hfound : t.file? names with
    | none => exact .inr ⟨by simp [hfound], .inl rfl⟩
    | some bytes => exact .inl ⟨names, bytes, by simp [hfound], hfound, rfl⟩
  cases hnames : names? r.uri.path with
  | none => exact .inr ⟨by simp [fileFor?, place?, hnames], .inl (by simp [serve, hnames])⟩
  | some names =>
    by_cases hdirectory : t.isDirectory (root ++ names) = true
    · by_cases hslash : r.uri.path.toList.getLast? = some '/'
      · exact hfile (root ++ names ++ ["index.html"])
          (by simp [place?, hnames, hdirectory, hslash])
          (by simp [serve, hnames, hdirectory, hslash])
      · exact .inr ⟨by simp [fileFor?, place?, hnames, hdirectory, hslash],
          .inr (by simp [serve, hnames, hdirectory, hslash])⟩
    · exact hfile (root ++ names) (by simp [place?, hnames, hdirectory])
        (by simp [serve, hnames, hdirectory])

end FileServer

end Gateway
