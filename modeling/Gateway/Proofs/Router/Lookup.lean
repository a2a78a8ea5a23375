import Gateway.Proofs.Route.Extension
import Gateway.Proofs.Router.Reachable

/-! What the tables of a router find for a path, before and after one more route is registered. -/

namespace Gateway

namespace Table

theorem Coherent.find?_add {t : Table} (h : t.Coherent) (pattern : String) (chain : Chain)
    (path : String) :
    (t.add pattern chain).find? path = t.find? path ∨
      ∃ hit, (t.add pattern chain).find? path = some (chain, pattern, hit) ∧
        hit.index = t.patterns.length := by
  rcases Matcher.find?_concat t.patterns pattern path with hsame | ⟨hit, hnew, hi⟩
  · left
    have hold : t.matcher.find? path = (t.add pattern chain).matcher.find? path := by
      rw [h.matcher]
      exact hsame.symm
    cases hf : t.matcher.find? path with
    | none => rw [find?_of_no_hit hf, find?_of_no_hit (hold.symm.trans hf)]
    | some hit =>
      obtain ⟨c, p, hc, hp, he⟩ := h.find?_of_hit hf
      obtain ⟨c', p', hc', hp', he'⟩ :=
        (h.add pattern chain).find?_of_hit (hold.symm.trans hf)
      have hlt := (List.getElem?_eq_some_iff.mp hc).1
      have hlt' := (List.getElem?_eq_some_iff.mp hp).1
      rw [Table.add, List.getElem?_append_left hlt, hc] at hc'
      rw [Table.add, List.getElem?_append_left hlt', hp] at hp'
      cases hc'
      cases hp'
      rw [he, he']
  · obtain ⟨c, p, hc, hp, he⟩ := (h.add pattern chain).find?_of_hit hnew
    have hchain : (t.add pattern chain).chains[hit.index]? = some chain := by
      simp [Table.add, hi, ← h.chains]
    have hpattern : (t.add pattern chain).patterns[hit.index]? = some pattern := by
      simp [Table.add, hi]
    obtain rfl := Option.some.inj (hc.symm.trans hchain)
    obtain rfl := Option.some.inj (hp.symm.trans hpattern)
    exact .inr ⟨hit, he, hi⟩

theorem Coherent.index_lt {t : Table} (h : t.Coherent) {path pattern : String} {chain : Chain}
    {hit : Hit} (hf : t.find? path = some (chain, pattern, hit)) :
    hit.index < t.patterns.length := by
  cases hm : t.matcher.find? path with
  | none => simp [find?_of_no_hit hm] at hf
  | some hit' =>
    obtain ⟨c, p, -, hp, he⟩ := h.find?_of_hit hm
    obtain ⟨-, -, rfl⟩ : c = chain ∧ p = pattern ∧ hit' = hit := by simpa [he] using hf
    exact (List.getElem?_eq_some_iff.mp hp).1

end Table

theorem Tables.Coherent.getD {ts : Tables} (h : ts.Coherent) (m : Method) :
    ((ts.get? m).getD {}).Coherent := by
  cases hg : ts.get? m with
  | none => exact Table.coherent_empty
  | some t => exact h.tables m t (mem_of_get? hg)

namespace Router

def lookup? (r : Router) (m : Method) (path : String) : Option (Chain × String × Hit) :=
  (r.tables.get? m).bind (·.find? path)

def table (r : Router) (m : Method) : Table := (r.tables.get? m).getD {}

theorem lookup?_eq (r : Router) (m : Method) (path : String) :
    r.lookup? m path = (r.table m).find? path := by
  unfold lookup? table
  cases r.tables.get? m with
  | none => exact (Table.find?_of_no_hit rfl).symm
  | some t => rfl

theorem table_register (r : Router) (m n : Method) (pattern : String) (chain : Chain) :
    (r.register m pattern chain).table n =
      if n = m then (r.table m).add pattern chain else r.table n :=
  Tables.get?_add r.tables m n pattern chain

end Router

namespace Site

/-- A route of a reachable site takes paths for itself only. Lookups of other methods find what they
found before, and so do those of its method, unless they find the new route, whose place is behind
all others. -/
theorem lookup?_handle {s : Site} (h : s.Reachable) (on : Fin s.groups.length) (m : Method)
    (pattern : String) (handlers : List Handler) :
    ∃ s', s.register on (.handle m pattern handlers) = .ok s' ∧
      let group := s.groups.get on
      let before := s.router.lookup?
      let after := s'.router.lookup?
      let place := (s.router.table m).patterns.length
      (∀ n path, n ≠ m → after n path = before n path) ∧
      (∀ path chain pattern hit, before m path = some (chain, pattern, hit) → hit.index < place) ∧
      ∀ path, after m path = before m path ∨
        ∃ hit, hit.index = place ∧ after m path =
          some (group.middleware ++ handlers, Path.join group.base pattern, hit) := by
  have hcoherent : (s.router.table m).Coherent := h.sound.tables.getD m
  refine ⟨_, rfl, ?_, ?_, ?_⟩
  · intro n path hn
    rw [Router.lookup?_eq, Router.lookup?_eq]
    simp only [Router.handle, Router.table_register, if_neg hn]
  · intro path chain pattern hit hf
    rw [Router.lookup?_eq] at hf
    exact hcoherent.index_lt hf
  · intro path
    rw [Router.lookup?_eq, Router.lookup?_eq]
    simp only [Router.handle, Router.table_register, if_true]
    rcases hcoherent.find?_add (Path.join (s.groups.get on).base pattern)
      ((s.groups.get on).middleware ++ handlers) path with hsame | ⟨hit, hnew, hi⟩
    · exact .inl hsame
    · exact .inr ⟨hit, hi, hnew⟩

def wide : Site :=
  let s := Site.new {} []
  { s with router := s.router.handle Router.rootGroup "GET" "/a/:x" [Recovery.handler] }

theorem wide_reachable : wide.Reachable :=
  .register (.new {} []) ⟨0, Nat.one_pos⟩ (.handle "GET" "/a/:x" [Recovery.handler]) rfl

theorem lookup?_handle_wide :
    wide.Reachable ∧
    (wide.router.lookup? "GET" "/a/7/8").map (·.2.2) = some ⟨0, [("x", "7/8")], "/a/:x"⟩ ∧
    ∃ s', wide.register ⟨0, Nat.one_pos⟩
        (.handle "GET" "/a/:x/:y" [AccessLogger.handler]) = .ok s' ∧
      s'.router.lookup? "GET" "/a/7" = wide.router.lookup? "GET" "/a/7" ∧
      ∃ hit, hit.index = 1 ∧ s'.router.lookup? "GET" "/a/7/8" =
        some ([AccessLogger.handler], "/a/:x/:y", hit) := by
  obtain ⟨s', hs', -, -, hpaths⟩ :=
    lookup?_handle wide_reachable ⟨0, Nat.one_pos⟩ "GET" "/a/:x/:y" [AccessLogger.handler]
  refine ⟨wide_reachable, by decide +kernel, s', hs', ?_, ?_⟩
  · rcases hpaths "/a/7" with hsame | ⟨hit, hi, hnew⟩
    · exact hsame
    · cases hs'
      have hindex := congrArg (Option.map (·.2.2.index)) hnew
      rw [Option.map_some, hi] at hindex
      exact absurd hindex (by decide +kernel)
  · rcases hpaths "/a/7/8" with hsame | ⟨hit, hi, hnew⟩
    · cases hs'
      exact absurd (congrArg (Option.map (·.2.2.index)) hsame) (by decide +kernel)
    · exact ⟨hit, hi, hnew⟩

end Site

end Gateway
