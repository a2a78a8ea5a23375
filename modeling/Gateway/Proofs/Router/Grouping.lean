import Gateway.Proofs.Route.Joining
import Gateway.Router.Basic

/-! Groups in groups: a route below them is the route that is registered through the outermost one
with all prefixes written out in front and all middleware in front of its handlers. -/

namespace Gateway

open Gateway.Path

/-- The group below all of the levels, the outermost of which comes first. -/
def Group.nest (g : Group) (levels : List (String × List Handler)) : Group :=
  levels.foldl (fun g level => g.sub level.1 level.2) g

/-- A path with all prefixes in front. -/
def Path.written (prefixes : List String) (path : String) : String :=
  "/".intercalate (prefixes ++ [path])

namespace Path

theorem written_cons (first : String) (prefixes : List String) (path : String) :
    written (first :: prefixes) path = first ++ "/" ++ written prefixes path :=
  String.intercalate_cons_of_ne_nil (by simp)

theorem Plain.written {path : String} (h : Plain path) {prefixes : List String}
    (hprefixes : ∀ p ∈ prefixes, Plain p) : Plain (written prefixes path) := by
  cases prefixes with
  | nil => simpa [Path.written] using h
  | cons first prefixes =>
    rw [written_cons]
    exact (hprefixes first List.mem_cons_self).append _

end Path

namespace Router

theorem handle_sub (r : Router) (g : Group) {above path : String} (habove : Plain above)
    (hpath : Plain path) {marker caret : String} (hmarker : marker ∈ ["", "= ", "~ "])
    (hcaret : caret ∈ ["", "^"]) (middleware handlers : List Handler) (m : Method) :
    r.handle (g.sub above middleware) m (marker ++ caret ++ path) handlers =
      r.handle g m (marker ++ caret ++ (above ++ "/" ++ path)) (middleware ++ handlers) := by
  have hpattern : join (join g.base above) (marker ++ caret ++ path) =
      join g.base (marker ++ caret ++ (above ++ "/" ++ path)) := by
    rw [hpath.join_marked hmarker hcaret, join_join habove hpath,
      (habove.append path).join_marked hmarker hcaret]
  simp only [handle, Group.sub, hpattern, List.append_assoc]

theorem handle_nest (r : Router) (g : Group) {levels : List (String × List Handler)}
    (hlevels : ∀ level ∈ levels, Plain level.1) {path : String} (hpath : Plain path)
    {marker caret : String} (hmarker : marker ∈ ["", "= ", "~ "]) (hcaret : caret ∈ ["", "^"])
    (handlers : List Handler) (m : Method) :
    r.handle (g.nest levels) m (marker ++ caret ++ path) handlers =
      r.handle g m (marker ++ caret ++ written (levels.map (·.1)) path)
        (levels.flatMap (·.2) ++ handlers) := by
  induction levels generalizing g with
  | nil => simp [Group.nest, Path.written]
  | cons level levels ih =>
    obtain ⟨hlevel, hlevels⟩ := List.forall_mem_cons.mp hlevels
    have hwritten : Plain (written (levels.map (·.1)) path) :=
      hpath.written (List.forall_mem_map.mpr hlevels)
    rw [List.map_cons, written_cons, List.flatMap_cons, List.append_assoc,
      ← handle_sub r g hlevel hwritten hmarker hcaret]
    exact ih (g.sub level.1 level.2) hlevels

/-- Joining a path onto a base that was joined itself is joining it with the prefix written out in
front, and a marker and a caret in front of the path stay in front. So a route that is registered
through groups in groups is the one that is registered through the outermost group with all prefixes
written out, and with the middleware of the groups in front of its handlers. -/
theorem groups_flatten (base : String) {p q : String} (hp : Plain p) (hq : Plain q) :
    join (join base p) q = join base (p ++ "/" ++ q) ∧
    (∀ marker ∈ ["", "= ", "~ "], ∀ caret ∈ ["", "^"],
      join base (marker ++ caret ++ q) = marker ++ caret ++ join base q) ∧
    ∀ (r : Router) (g : Group) (levels : List (String × List Handler)) (m : Method)
      (handlers : List Handler), (∀ level ∈ levels, Plain level.1) →
      ∀ marker ∈ ["", "= ", "~ "], ∀ caret ∈ ["", "^"],
        r.handle (g.nest levels) m (marker ++ caret ++ q) handlers =
          r.handle g m (marker ++ caret ++ written (levels.map (·.1)) q)
            (levels.flatMap (·.2) ++ handlers) := by
  refine ⟨join_join hp hq base, fun marker hmarker caret hcaret => ?_, ?_⟩
  · exact hq.join_marked hmarker hcaret base
  · intro r g levels m handlers hlevels marker hmarker caret hcaret
    exact handle_nest r g hlevels hq hmarker hcaret handlers m

theorem groups_flatten_dotted :
    let p := "v1/../v2//"
    let q := "./items/..//:id/"
    let levels := [("/api", [Recovery.handler]), (p, [])]
    Plain p ∧ Plain q ∧ (∀ level ∈ levels, Plain level.1) ∧
    join (join "/api" p) q = "/api/v2/:id/" ∧
    join "/api" ("~ ^" ++ q) = "~ ^/api/:id/" ∧
    (new {}).handle (rootGroup.nest levels) "GET" ("~ ^" ++ q) [] =
      (new {}).handle rootGroup "GET" "~ ^/api/v1/../v2///./items/..//:id/" [Recovery.handler] := by
  intro p q levels
  have hp : Plain p := by decide
  have hq : Plain q := by decide
  have hlevels : ∀ level ∈ levels, Plain level.1 := by decide
  obtain ⟨hjoin, hmarked, hnest⟩ := groups_flatten "/api" hp hq
  refine ⟨hp, hq, hlevels, hjoin.trans (by decide +kernel), ?_, ?_⟩
  · exact (hmarked "~ " (by decide) "^" (by decide)).trans (by decide +kernel)
  · exact hnest (new {}) rootGroup levels "GET" [] hlevels "~ " (by decide) "^" (by decide)

end Router

end Gateway
