import Gateway.Proofs.Files.Resolution

/-! The names that a path leads through, cut at a slash: first those before it and then those behind
it, also where the path is still encoded. So what stands behind a slash in a parameter never leads
where the parameter itself does. -/

namespace Gateway

/-! ### Decoding at a slash -/

namespace Percent

theorem decode_cons {b : UInt8} {rest : Bytes}
    (h : b = 0x25 → ∀ x y more, rest = x :: y :: more → hexByte? x = none ∨ hexByte? y = none) :
    decode (b :: rest) = b :: decode rest := by
  rw [decode.eq_def]
  split
  · next he => cases he
  · next x y more he =>
    cases he
    split
    · next hx hy => simp [hx, hy] at h
    · rfl
  · next he =>
    cases he
    rfl

theorem decode_append (xs ys : Bytes) :
    decode (xs ++ 0x2F :: ys) = decode xs ++ 0x2F :: decode ys := by
  fun_induction decode xs with
  | case1 => exact decode_slash ys
  | case2 x y rest h l hx hy ih => simp [decode, hx, hy, ih]
  | case3 x y rest hnot ih =>
    refine (decode_cons fun _ x' y' more he => ?_).trans (congrArg _ ih)
    cases he
    cases hx : hexByte? x with
    | none => exact .inl rfl
    | some h => exact .inr (Option.eq_none_iff_forall_ne_some.mpr fun l hy => hnot h l hx hy)
  | case4 b rest hnot ih =>
    refine (decode_cons fun hb x y more he => ?_).trans (congrArg _ ih)
    have hslash : hexByte? 0x2F = none := by decide
    rcases rest with _ | ⟨first, _ | ⟨second, rest⟩⟩
    · cases he
      exact .inl hslash
    · cases he
      exact .inr hslash
    · exact (hnot _ _ _ hb rfl).elim

end Percent

namespace Utf8

theorem lead_low {b n lo hi acc : Nat} (h : lead b = some (n, lo, hi, acc)) : 0x80 ≤ lo := by
  unfold lead at h
  grind

theorem continuation_append {lo : Nat} (low : 0x80 ≤ lo) (hi acc n : Nat) (xs ys : Bytes) :
    continuation lo hi acc n (xs ++ 0x2F :: ys) =
      ((continuation lo hi acc n xs).1, (continuation lo hi acc n xs).2 ++ 0x2F :: ys) := by
  induction n generalizing lo hi acc xs with
  | zero => rfl
  | succ n ih =>
    cases xs with
    | nil =>
      have hlt : ¬ lo ≤ (0x2F : UInt8).toNat := by
        have hslash : (0x2F : UInt8).toNat = 0x2F := rfl
        omega
      simp only [List.nil_append, continuation, hlt, false_and, if_false]
    | cons b xs =>
      rw [List.cons_append, continuation, continuation]
      split
      · exact ih (Nat.le_refl _) ..
      · rfl

theorem scan_append (xs ys : Bytes) : scan (xs ++ 0x2F :: ys) = scan xs ++ some '/' :: scan ys := by
  fun_induction scan xs with
  | case1 => exact scan_slash ys
  | case2 b bytes hb ih => simp [scan, hb, ih]
  | case3 b bytes hb hlead ih => simp [scan, hb, hlead, ih]
  | case4 b bytes hb n lo hi acc hlead _ ih =>
    rw [List.cons_append, scan, if_neg hb, hlead]
    dsimp only
    rw [continuation_append (lead_low hlead), ih, List.cons_append]

end Utf8

namespace StaticFiles

theorem decode?_append (a b : List Char) :
    decode? (String.ofList (a ++ '/' :: b)) = (decode? (String.ofList a)).bind fun s =>
      (decode? (String.ofList b)).map fun t => String.ofList (s.toList ++ '/' :: t.toList) := by
  have hencode : Utf8.encode (String.ofList (a ++ '/' :: b)) =
      Utf8.encode (String.ofList a) ++ 0x2F :: Utf8.encode (String.ofList b) := by
    simp only [Utf8.encode, String.toList_ofList, List.flatMap_append, List.flatMap_cons]
    rfl
  simp only [decode?, hencode, Percent.decode_append, Utf8.decode?, Utf8.scan_append,
    List.mapM_append, List.mapM_cons]
  cases (Utf8.scan (Percent.decode (Utf8.encode (String.ofList a)))).mapM id with
  | none => rfl
  | some s =>
    cases (Utf8.scan (Percent.decode (Utf8.encode (String.ofList b)))).mapM id with
    | none => rfl
    | some t => simp

theorem filterMap_read (first : Bool) (part : List Char) :
    (PathPart.ofText.read first part).filterMap PathPart.name? =
      (PathPart.ofText.read false part).filterMap PathPart.name? := by
  cases first with
  | false => rfl
  | true =>
    unfold PathPart.ofText.read
    by_cases hdot : part = ['.'] <;> simp [hdot, PathPart.name?]

theorem names_eq (f : List Char) : names f = (Text.pieces '/' f).flatMap fun part =>
    (PathPart.ofText.read false part).filterMap PathPart.name? := by
  unfold names PathPart.ofText
  cases hpieces : Text.pieces '/' f with
  | nil => rfl
  | cons first rest =>
    dsimp only
    rw [List.filterMap_append, List.filterMap_flatMap, filterMap_read, List.flatMap_cons]

theorem names_append (s t : List Char) : names (s ++ '/' :: t) = names s ++ names t := by
  rw [names_eq, names_eq, names_eq, Text.pieces_append, List.flatMap_append]

theorem names_dropWhile (f : List Char) : names (f.dropWhile (· == '/')) = names f := by
  induction f with
  | nil => rfl
  | cons c cs ih =>
    by_cases hc : c = '/'
    · subst hc
      rw [List.dropWhile_cons_of_pos (by simp), ih]
      exact (names_append [] cs).symm
    · rw [List.dropWhile_cons_of_neg (by simpa using hc)]

theorem names_ne_nil {f : List Char} (hne : f ≠ []) (relative : f.head? ≠ some '/')
    (level : ['.', '.'] ∉ Text.pieces '/' f) (plain : (Text.pieces '/' f).head? ≠ some ['.']) :
    names f ≠ [] := by
  obtain ⟨c, cs, rfl⟩ := List.exists_cons_of_ne_nil hne
  have hc : c ≠ '/' := by simpa using relative
  obtain ⟨first, rest, hpieces, hfirst⟩ : ∃ first rest,
      Text.pieces '/' (c :: cs) = first :: rest ∧ first ≠ [] := by
    rw [Text.pieces, if_neg hc]
    split <;> exact ⟨_, _, rfl, List.cons_ne_nil _ _⟩
  rw [hpieces] at level plain
  rw [names_eq, hpieces, List.flatMap_cons]
  rcases PathPart.read_cases false first with ⟨h, -⟩ | ⟨rfl, -⟩ | ⟨rfl, -⟩ | ⟨-, -, -, h⟩
  · exact absurd h hfirst
  · exact absurd rfl plain
  · exact absurd List.mem_cons_self level
  · simp [h, PathPart.name?]

theorem accepted_of_tested? {root : List String} {raw : String} {path : FilePath} {f : List Char}
    (h : tested? root raw = some path) (hf : relative? raw = some f) :
    ['.', '.'] ∉ Text.pieces '/' f ∧ (Text.pieces '/' f).head? ≠ some ['.'] := by
  have haccepted : ¬ Refused raw := by
    rw [← tested?_eq_none_iff root, h]
    exact Option.some_ne_none _
  refine not_or.mp fun hbad => haccepted fun g hg => ?_
  obtain rfl := Option.some.inj (hf.symm.trans hg)
  exact hbad

/-- What stands behind a slash in a parameter leads through the last names of the parameter, but not
through all of them. -/
theorem names_behind {root : List String} {front back : List Char} {path found : FilePath}
    (htested : tested? root (String.ofList (front ++ '/' :: back)) = some path)
    (hfound : tested? root (String.ofList back) = some found)
    (relative : ∀ s, decode? (String.ofList (front ++ '/' :: back)) = some s →
      s.toList.head? ≠ some '/') :
    ∃ above below, above ≠ [] ∧ path.names = root ++ (above ++ below) ∧
      found.names = root ++ below := by
  obtain ⟨f, hf, -, hpath⟩ := exists_of_tested? htested
  obtain ⟨g, hg, -, hbelow⟩ := exists_of_tested? hfound
  obtain ⟨level, plain⟩ := accepted_of_tested? htested hf
  obtain ⟨s, hs, rfl⟩ := Option.map_eq_some_iff.mp hf
  obtain ⟨t, ht, rfl⟩ := Option.map_eq_some_iff.mp hg
  have hhead := relative s hs
  rw [decode?_append, ht] at hs
  obtain ⟨u, -, hsplit⟩ := Option.bind_eq_some_iff.mp hs
  obtain rfl := Option.some.inj hsplit
  rw [names_dropWhile] at hpath hbelow
  rw [String.toList_ofList] at hhead hpath level plain
  refine ⟨names u.toList, names t.toList, ?_, names_append _ _ ▸ hpath, hbelow⟩
  cases hu : u.toList with
  | nil => simp [hu] at hhead
  | cons c cs =>
    have hc : c ≠ '/' := by simpa [hu] using hhead
    rw [hu, List.cons_append, List.dropWhile_cons_of_neg (by simpa using hc), ← List.cons_append,
      Text.pieces_append] at level plain
    refine names_ne_nil (List.cons_ne_nil c cs) (by simpa using hc)
      (fun h => level (List.mem_append_left _ h)) fun h => plain ?_
    rw [List.head?_append, h, Option.some_or]

end StaticFiles

end Gateway
