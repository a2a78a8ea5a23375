import Gateway.Proofs.Route.Compile
import Gateway.Proofs.Route.Joining
import Gateway.Proofs.Route.Least
import Gateway.Proofs.Router.Lookup

/-! Carets and groups: a caret in front of a pattern anchors it below every group, and one in front
of the prefix of a group becomes a segment of the paths below it. -/

namespace Gateway

open Gateway.Path Text

def Path.caret (anchored : Bool) : String := if anchored then "^" else ""

namespace Path

theorem unmarked_of_rooted {path : String} (h : path.toList.head? = some '/') : Unmarked path := by
  obtain ⟨rest, hpath⟩ := List.head?_eq_some_iff.mp h
  simp [Unmarked, Pattern.exactMarker, Pattern.priorityMarker, hpath]

theorem join_relative {anchored : Bool} {path : String} (nonempty : caret anchored ++ path ≠ "")
    (unmarked : Unmarked (caret anchored ++ path)) (once : path.toList.head? ≠ some '^')
    (base : String) :
    join base (caret anchored ++ path) = caret anchored ++ clean (base ++ "/" ++ path) := by
  cases anchored with
  | true =>
    have hsplit : Pattern.splitMarker ("^" ++ path).toList = ("", '^' :: path.toList) :=
      (splitMarker_of_unmarked unmarked).trans (by rw [caret, if_pos rfl, String.toList_append]; rfl)
    rw [caret, if_pos rfl, join_caret hsplit, String.ofList_toList, String.empty_append]
  | false =>
    have hplain : Plain path := by
      refine ⟨?_, ?_, once⟩
      · simpa [caret] using nonempty
      · simpa [caret] using unmarked
    simpa [caret] using hplain.join_eq base

theorem kept_slash (path : List Char) : kept ('/' :: path) = kept path := by
  rw [kept, pieces, if_pos rfl]
  rfl

theorem clean_root {path : String} (rooted : path.toList.head? = some '/') :
    clean ("/" ++ "/" ++ path) = clean path := by
  have hne : path.toList ≠ [] := by
    intro he
    rw [he] at rooted
    cases rooted
  have hchars : cleanChars ('/' :: '/' :: path.toList) = cleanChars path.toList := by
    apply pieces_injective '/'
    have hend : endsWithSlash ('/' :: '/' :: path.toList) = endsWithSlash path.toList :=
      endsWithSlash_append ['/', '/'] hne
    rw [pieces_cleanChars, pieces_cleanChars, kept_slash, kept_slash, hend]
  simpa [clean, String.toList_append] using congrArg String.ofList hchars

theorem join_root {path : String} (rooted : path.toList.head? = some '/') (anchored : Bool) :
    join "/" (caret anchored ++ path) = caret anchored ++ clean path := by
  have hne : caret anchored ++ path ≠ "" := by
    intro he
    rw [(String.append_eq_empty_iff.mp he).2] at rooted
    cases rooted
  have hunmarked : Unmarked (caret anchored ++ path) := by
    cases anchored with
    | true => exact unmarked_caret path
    | false => simpa [caret] using unmarked_of_rooted rooted
  rw [join_relative hne hunmarked (by simp [rooted]), clean_root rooted]

/-! ### A caret in front of a prefix -/

theorem foldl_walk_of_no_up {segs : List (List Char)} (h : ['.', '.'] ∉ segs)
    (kept : List (List Char)) : kept <:+ segs.foldl walk kept := by
  induction segs generalizing kept with
  | nil => exact List.suffix_refl _
  | cons s segs ih =>
    obtain ⟨hs, hsegs⟩ := not_or.mp (mt List.mem_cons.mpr h)
    refine List.IsSuffix.trans ?_ (ih hsegs _)
    rcases segment_cases s with hstay | rfl | hproper
    · simpa only [walk_of_stay _ hstay] using List.suffix_refl kept
    · exact absurd rfl hs
    · rw [walk_of_proper _ hproper]
      exact List.suffix_cons _ _

theorem up_notMem_pieces_cleanChars (path : List Char) :
    ['.', '.'] ∉ pieces '/' (cleanChars path) := by
  intro h
  rcases mem_pieces_cleanChars h with h | h
  · cases h
  · exact (proper_of_mem_kept _ h).2.2 rfl

theorem prefix_intercalate (sep first : List Char) (parts : List (List Char)) :
    first <+: sep.intercalate (first :: parts) := by
  cases parts with
  | nil => simpa only [List.intercalate_singleton] using List.prefix_refl first
  | cons second parts =>
    rw [List.intercalate_cons_cons, List.append_assoc]
    exact List.prefix_append _ _

theorem caret_segment (base : String) {path : String} (level : ['.', '.'] ∉ pieces '/' path.toList) :
    ['/', '^'] <+: (clean ("^" ++ clean base ++ "/" ++ path)).toList := by
  obtain ⟨rest, hbase⟩ := List.head?_eq_some_iff.mp (head?_cleanChars base.toList)
  have hchars : ("^" ++ clean base ++ "/" ++ path).toList =
      ['^'] ++ '/' :: (rest ++ '/' :: path.toList) := by
    simp [clean, String.toList_append, hbase]
  have hlevel : ['.', '.'] ∉ pieces '/' (rest ++ '/' :: path.toList) := by
    have hup := up_notMem_pieces_cleanChars base.toList
    rw [hbase, pieces, if_pos rfl] at hup
    rw [pieces_append, List.mem_append]
    exact not_or.mpr ⟨fun h => hup (List.mem_cons_of_mem _ h), level⟩
  have hkept : [['^']] <+: kept (['^'] ++ '/' :: (rest ++ '/' :: path.toList)) := by
    rw [kept, pieces_append, resolve_append]
    exact List.reverse_prefix.mpr (foldl_walk_of_no_up hlevel [['^']])
  obtain ⟨more, hmore⟩ := hkept
  rw [clean, String.toList_ofList, hchars, ← intercalate_pieces '/' (cleanChars _),
    pieces_cleanChars, ← hmore]
  exact List.prefix_cons_inj _ |>.mpr (prefix_intercalate ['/'] ['^'] _)

end Path

namespace Template

theorem find?_isSome_iff {t : Template} {path : List Char} :
    (t.find? path).isSome ↔ ∃ before rest values, path = before ++ rest ∧
      Fits t.pieces rest values ∧ (t.anchored = true → before = []) := by
  constructor
  · intro h
    obtain ⟨⟨n, values⟩, hfound⟩ := Option.isSome_iff_exists.mp h
    obtain ⟨rest, hpath, hfits, hfront⟩ := split_iff.mp (split_of_find? hfound)
    exact ⟨_, rest, values, hpath, hfits, hfront⟩
  · rintro ⟨before, rest, values, hpath, hfits, hfront⟩
    exact find?_isSome_of_split (split_iff.mpr ⟨rest, hpath, hfits, hfront⟩)

theorem infix_of_find? {anchored : Bool} {c d : Char} {cs path : List Char}
    (hc : c ≠ ':' ∧ c ≠ '*') (hd : d ≠ ':' ∧ d ≠ '*')
    (h : (find? ⟨anchored, readPieces (c :: d :: cs)⟩ path).isSome) : [c, d] <:+: path := by
  obtain ⟨before, rest, values, rfl, hfits, -⟩ := find?_isSome_iff.mp h
  rw [readPieces, if_neg (not_or.mpr hc), readPieces, if_neg (not_or.mpr hd)] at hfits
  obtain ⟨second, rfl, hsecond⟩ := fits_char_iff.mp hfits
  obtain ⟨others, rfl, -⟩ := fits_char_iff.mp hsecond
  exact ⟨before, others, by simp⟩

end Template

open Template

theorem Pattern.ofText_of_unmarked {pattern : String} (h : Unmarked pattern) :
    Pattern.ofText pattern = .template false pattern (.ofText pattern.toList) := by
  simp only [Unmarked, List.forall_mem_cons] at h
  obtain ⟨hexact, hpriority, -⟩ := h
  unfold Pattern.ofText
  split
  · next rest he => exact absurd ⟨rest, he.symm⟩ hexact
  · next rest he => exact absurd ⟨rest, he.symm⟩ hpriority
  · rfl

theorem Pattern.ofText_rooted {path : String} (rooted : path.toList.head? = some '/')
    (anchored : Bool) : Pattern.ofText (caret anchored ++ path) =
      .template false (caret anchored ++ path) ⟨anchored, readPieces path.toList⟩ := by
  cases anchored with
  | true =>
    have hchars : ("^" ++ path).toList = '^' :: path.toList := String.toList_append
    rw [caret, if_pos rfl, ofText_of_unmarked (unmarked_caret path), hchars, ofText_caret]
  | false =>
    have hempty : caret false ++ path = path := String.empty_append
    rw [hempty, ofText_of_unmarked (unmarked_of_rooted rooted), ofText_plain (by simp [rooted])]

namespace Router

/-- A route below a group of the root is anchored when its own pattern has a caret, and then it finds
no path with text in front. Behind the caret is the clean path of the prefix and the pattern. But the
prefix is cleaned with its caret below it as another segment: it anchors nothing, and as long as the
pattern does not go up, only paths that have that segment are found. -/
theorem handle_sub_caret {p path : String} (rooted : p.toList.head? = some '/')
    (front inner : Bool) (nonempty : caret inner ++ path ≠ "")
    (unmarked : Unmarked (caret inner ++ path)) (once : path.toList.head? ≠ some '^')
    (r : Router) (m : Method) (middleware handlers : List Handler) :
    let text := clean (caret front ++ clean p ++ "/" ++ path)
    let t : Template := ⟨inner, readPieces text.toList⟩
    r.handle (rootGroup.sub (caret front ++ p) middleware) m (caret inner ++ path) handlers =
      r.register m (caret inner ++ text) (middleware ++ handlers) ∧
    ((caret inner ++ text).toList.head? = some '^' ↔ inner = true) ∧
    Pattern.ofText (caret inner ++ text) = .template false (caret inner ++ text) t ∧
    (∀ found, (t.find? found).isSome ↔ ∃ before rest values, found = before ++ rest ∧
      Fits t.pieces rest values ∧ (inner = true → before = [])) ∧
    (front = false → text = clean (p ++ "/" ++ path)) ∧
    (front = true → ['.', '.'] ∉ pieces '/' path.toList →
      ∀ found, (t.find? found).isSome → ['/', '^'] <:+: found) := by
  intro text t
  have htext : text.toList.head? = some '/' := by
    rw [show text = clean _ from rfl, clean, String.toList_ofList, head?_cleanChars]
  refine ⟨?_, ?_, Pattern.ofText_rooted htext inner, fun found => find?_isSome_iff, ?_, ?_⟩
  · simp only [handle, Group.sub, rootGroup, join_root rooted,
      join_relative nonempty unmarked once, List.nil_append]
    rfl
  · cases inner with
    | true => simp [caret, String.toList_append]
    | false => simp [caret, htext]
  · rintro rfl
    exact (congrArg clean (by simp [caret])).trans (clean_append p path)
  · rintro rfl level found hfound
    obtain ⟨rest, hrest⟩ := caret_segment p level
    have hpieces : t = ⟨inner, readPieces ('/' :: '^' :: rest)⟩ :=
      congrArg (fun cs => Template.mk inner (readPieces cs)) hrest.symm
    rw [hpieces] at hfound
    exact infix_of_find? (by decide) (by decide) hfound

theorem handle_sub_caret_kept :
    let text := clean (clean "/api//" ++ "/" ++ "./v1/:id/")
    let pattern := "^" ++ text
    "/api//".toList.head? = some '/' ∧ "^" ++ "./v1/:id/" ≠ "" ∧ Unmarked ("^" ++ "./v1/:id/") ∧
    "./v1/:id/".toList.head? ≠ some '^' ∧ pattern = "^/api/v1/:id/" ∧
    (new {}).handle (rootGroup.sub "/api//" []) "GET" "^./v1/:id/" [] =
      (new {}).register "GET" pattern [] ∧
    ∀ found, (find? ⟨true, readPieces text.toList⟩ found).isSome →
      ∃ values, Fits (readPieces text.toList) found values := by
  intro text pattern
  have hrooted : "/api//".toList.head? = some '/' := by decide
  have hnonempty : "^" ++ "./v1/:id/" ≠ "" := by decide
  have hunmarked : Unmarked ("^" ++ "./v1/:id/") := unmarked_caret _
  have honce : "./v1/:id/".toList.head? ≠ some '^' := by decide
  obtain ⟨hregister, -, -, hfound, -, -⟩ := handle_sub_caret hrooted false true hnonempty hunmarked
    honce (new {}) "GET" [] []
  refine ⟨hrooted, hnonempty, hunmarked, honce, by decide +kernel, hregister, fun found hf => ?_⟩
  obtain ⟨before, rest, values, rfl, hfits, hfront⟩ := (hfound found).mp hf
  obtain rfl := hfront rfl
  exact ⟨values, hfits⟩

/-- The caret of a prefix takes its group from the paths that it is for. -/
theorem caret_prefix_unreachable :
    let r := (new {}).handle (rootGroup.sub "^/x" []) "GET" "r" []
    r.routes.map (·.path) = ["/^/x/r"] ∧ (r.lookup? "GET" "/x/r").isNone ∧
      (r.lookup? "GET" "/y/^/x/r").isSome := by
  decide +kernel

end Router

end Gateway
