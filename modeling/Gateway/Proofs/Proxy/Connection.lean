import Gateway.Proofs.Proxy.Hop

/-! What a message loses when the fields of its connection are taken out: the fixed ones and those
that it lists in `Connection`, and nothing else. -/

namespace Gateway.Headers

/-- A readable `Connection` field lists the name, in any case and with blanks around it. -/
def Lists (h : Headers) (name : HeaderName) : Prop :=
  name ≠ "" ∧ ∃ v ∈ h.getAll "connection", ∃ text, v.text? = some text ∧
    ∃ item, Text.Between ',' item text.toList ∧
      (Text.trimBlank (String.ofList item)).toLower = name

theorem mem_connectionNames_iff {h : Headers} {name : HeaderName} :
    name ∈ h.connectionNames ↔ h.Lists name := by
  simp only [connectionNames, List.mem_flatMap, Lists, ← exists_and_left]
  refine exists_congr fun v => ?_
  cases hv : v.text? with
  | none => simp
  | some text =>
    simp only [List.mem_filter, List.mem_map, Text.mem_pieces_iff, Option.some.injEq]
    constructor
    · rintro ⟨hmem, ⟨item, hitem, rfl⟩, hne⟩
      exact ⟨text, item, by simpa using hne, hmem, rfl, hitem, rfl⟩
    · rintro ⟨_, item, hne, hmem, rfl, hitem, rfl⟩
      exact ⟨hmem, ⟨item, hitem, rfl⟩, by simpa using hne⟩

theorem getAll_withoutHop_of_hop (h : Headers) {name : HeaderName} (hop : name ∈ hopByHop) :
    h.withoutHop.getAll name = [] := by
  rw [getAll_withoutHop, if_pos (.inl hop)]

theorem connectionNames_withoutHop (h : Headers) : h.withoutHop.connectionNames = [] := by
  have hconnection : h.withoutHop.getAll "connection" = [] :=
    h.getAll_withoutHop_of_hop List.mem_cons_self
  rw [connectionNames, hconnection, List.flatMap_nil]

theorem withoutHop_withoutHop (h : Headers) : h.withoutHop.withoutHop = h.withoutHop := by
  have hnames : h.withoutHop.withoutHop = hopByHop.foldl remove h.withoutHop := by
    rw [withoutHop, connectionNames_withoutHop, List.foldl_nil]
  rw [hnames]
  exact foldl_remove_of_absent fun _ hop => h.getAll_withoutHop_of_hop hop

/-- Exactly the fixed names and those that a readable `Connection` field lists lose their values; all
others keep theirs in order. A second time nothing is left to take out. -/
theorem withoutHop_exact (h : Headers) :
    (∀ name,
      (name ∈ hopByHop ∨ h.Lists name → h.withoutHop.getAll name = []) ∧
      (¬ (name ∈ hopByHop ∨ h.Lists name) → h.withoutHop.getAll name = h.getAll name)) ∧
    h.withoutHop.withoutHop = h.withoutHop := by
  refine ⟨fun name => ?_, h.withoutHop_withoutHop⟩
  have hiff : h.OfHop name ↔ name ∈ hopByHop ∨ h.Lists name :=
    or_congr_right mem_connectionNames_iff
  rw [getAll_withoutHop, ← hiff]
  exact ⟨fun hhop => if_pos hhop, fun hhop => if_neg hhop⟩

example :
    withoutHop ⟨[("connection", .ofText "Keep-Alive,, X-Private "), ("x-private", .ofText "1"),
      ("connection", .ofText "connection"), ("accept", .ofText "a"), ("accept", .ofText "b")]⟩ =
    ⟨[("accept", .ofText "a"), ("accept", .ofText "b")]⟩ := by
  decide +kernel

end Gateway.Headers
