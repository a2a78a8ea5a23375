import Gateway.Proofs.Files.Location
import Gateway.Proofs.Router.Files
import Gateway.Proofs.Router.Mounting

/-! Where a mount sends a client that asks for a directory, and what the router finds there. -/

namespace Gateway

open Gateway.Path Gateway.StaticFiles Machine Text

/-! ### Clean paths -/

namespace Path

theorem Canonical.proper_behind {front back : List Char} (h : Canonical (front ++ '/' :: back))
    (hne : back ≠ []) : ∀ s ∈ pieces '/' (Candidate.withoutSlash back), Proper s := by
  have htail : (pieces '/' (front ++ '/' :: back)).tail =
      (pieces '/' front).tail ++ pieces '/' back := by
    rw [pieces_append, List.tail_append_of_ne_nil (pieces_ne_nil _ _)]
  have hproper := h.proper
  have hends := endsWithSlash_iff (front ++ '/' :: back)
  unfold segments at hproper
  rw [htail] at hproper hends
  unfold Candidate.withoutSlash
  split
  · next hlast =>
    obtain ⟨v, rfl⟩ := List.getLast?_eq_some_iff.mp hlast
    rw [pieces_concat_slash, ← List.append_assoc] at hproper
    simp only [List.getLast?_concat, if_true, List.dropLast_concat] at hproper
    rw [List.dropLast_concat]
    exact fun s hs => hproper s (List.mem_append_right _ hs)
  · next hlast =>
    have hno : ¬ endsWithSlash (front ++ '/' :: back) = true := by
      rw [List.append_cons, endsWithSlash_append _ hne, endsWithSlash, beq_iff_eq]
      exact hlast
    rw [hends] at hno
    dsimp only at hproper
    rw [if_neg hno] at hproper
    exact fun s hs => hproper s (List.mem_append_right _ hs)

theorem canonical_slashed {s : List Char} (h : ∀ p ∈ pieces '/' s, Proper p) :
    Canonical ('/' :: (s ++ ['/'])) where
  rooted := rfl
  proper := by
    have hpieces : (pieces '/' ('/' :: (s ++ ['/']))).tail = pieces '/' s ++ [[]] := by
      rw [pieces, if_pos rfl, List.tail_cons, pieces_concat_slash]
    unfold segments
    rw [hpieces]
    simpa using h

end Path

namespace StaticFiles

theorem bare_of_proper {raw : String} (h : ∀ p ∈ pieces '/' raw.toList, Proper p) :
    bare raw = raw.toList := by
  unfold bare
  cases hraw : raw.toList with
  | nil => rfl
  | cons c cs =>
    refine List.dropWhile_cons_of_neg fun hc => ?_
    obtain rfl : c = '/' := by simpa using hc
    rw [hraw, pieces, if_pos rfl] at h
    exact (h [] List.mem_cons_self).1 rfl

end StaticFiles

namespace Router

variable {r : Router} {request : Request} {chain : Chain} {pattern raw : String} {hit : Hit}

theorem lookupPath_location {front back : List Char}
    (text : (r.lookupPath request).toList = front ++ '/' :: back) (hne : back ≠ [])
    (hraw : raw.toList = Candidate.withoutSlash back) {again : Request}
    (follows : again.uri.path = location raw) : r.lookupPath again = location raw := by
  unfold lookupPath at text ⊢
  rw [follows]
  split at text
  · next hclean =>
    rw [if_pos hclean, clean_eq_iff, location, String.toList_ofList]
    have hcanonical : Canonical (front ++ '/' :: back) := by
      rw [← text, clean, String.toList_ofList]
      exact canonical_cleanChars _
    have hproper := hcanonical.proper_behind hne
    rw [← hraw] at hproper
    exact canonical_slashed (bare_of_proper hproper ▸ hproper)
  · next hplain => rw [if_neg hplain]

/-! ### A request for a directory -/

theorem chosen_of_lookup?
    (routed : r.lookup? request.method (r.lookupPath request) = some (chain, pattern, hit)) :
    r.chosen request = .route chain pattern hit.params := by
  unfold lookup? at routed
  simp only [chosen, choose, routed]

theorem launch_params (w : World)
    (routed : r.lookup? request.method (r.lookupPath request) = some (chain, pattern, hit)) :
    (r.launch w request).exchange.context.params = hit.params := by
  unfold launch
  rw [chosen_of_lookup? routed]
  rfl

theorem reaches_first (r : Router) {h : Handler} (w : World) (request : Request)
    (routed : r.lookup? request.method (r.lookupPath request) = some (h :: chain, pattern, hit)) :
    let n : Machine := ⟨.handler 0 h.program, [], (r.launch w request).exchange.enter 0⟩
    Reaches (h :: chain) (r.launch w request) n ∧ Enters (h :: chain) 0 h n ∧
      n.exchange.context.request = request := by
  have hrunning : (r.opening w request).context.aborted = false :=
    congrArg Context.aborted r.checkout_context
  unfold launch
  rw [chosen_of_lookup? routed]
  exact ⟨.single (.enter (h := h) rfl rfl), ⟨rfl, rfl, hrunning, rfl⟩, rfl⟩

theorem value_proper (r : Router) (w : World) (proper : request.uri.Proper) {n : Machine}
    (reached : Reaches chain (r.launch w request) n) (name : String) :
    ∀ c ∈ (n.exchange.context.params.value name).toList, c ≠ '?' ∧ c ≠ '#' := by
  have hwithin := r.launch_within w request
  rw [← reached.params] at hwithin
  exact fun c hc => r.lookupPath_proper proper c (hwithin.value _ hc)

theorem template_of_captured (sound : r.Sound) {m : Method} {path : String}
    (h : r.lookup? m path = some (chain, pattern, hit))
    (named : bare (hit.params.value parameter) ≠ []) (text : String) :
    Pattern.ofText pattern ≠ .exact text := by
  intro hexact
  rcases lookup?_cases sound h with ⟨-, hparams⟩ | ⟨_, _, _, _, _, htemplate, -⟩
  · rw [hparams] at named
    exact named rfl
  · rw [hexact] at htemplate
    cases htemplate

/-! ### The place that the client is sent to -/

theorem split_location {raw : String} {front back : List Char}
    (h : (location raw).toList = front ++ '/' :: back) (hne : back ≠ []) :
    '/' :: bare raw = front ++ '/' :: Candidate.withoutSlash back := by
  rw [location, String.toList_ofList] at h
  have hslash : (front ++ '/' :: back).getLast? = some '/' := by
    rw [← h, ← List.cons_append, List.getLast?_concat]
  rw [List.append_cons, List.getLast?_append_of_ne_nil _ hne] at hslash
  obtain ⟨v, rfl⟩ := List.getLast?_eq_some_iff.mp hslash
  have hback : Candidate.withoutSlash (v ++ ['/']) = v := by simp [Candidate.withoutSlash]
  rw [hback]
  have hends : '/' :: bare raw ++ ['/'] = front ++ '/' :: v ++ ['/'] := by simpa using h
  exact List.append_cancel_right hends

/-- A request for the location is for the directory exactly when the files are served at the root.
Elsewhere the front of the directory's own path is taken for the mount. -/
theorem Behind.same_iff {params : Params} {front back : List Char} {root : List String}
    {path : FilePath} (h : Behind pattern (location raw) params front back)
    (once : (Pattern.ofText pattern).names.count parameter ≤ 1)
    (tested : tested? root raw = some path) (relative : Relative raw) (line : '\n' ∉ raw.toList) :
    (∃ found, tested? root (params.value parameter) = some found ∧ found.names = path.names) ↔
      AtRoot pattern := by
  have hsplit := split_location h.text h.nonempty
  rw [h.value once]
  rw [← tested?_bare] at tested
  constructor
  · rintro ⟨found, hfound, hsame⟩
    by_contra hnot
    obtain ⟨c, above, rfl⟩ := List.exists_cons_of_ne_nil (h.below hnot)
    have hbare := (List.cons.inj hsplit).2
    unfold Relative at relative
    rw [hbare] at tested relative
    obtain ⟨higher, lower, hne, hpath, hlower⟩ := names_behind tested hfound relative
    rw [hpath, hlower] at hsame
    exact hne (by simpa using congrArg List.length hsame)
  · intro hroot
    have hline : '\n' ∉ bare raw ++ ['/'] := by
      simpa using fun hm => line (bare_subset raw hm)
    obtain rfl := h.whole hroot _ String.toList_ofList hline
    rw [← (List.cons.inj hsplit).2]
    exact ⟨path, tested, rfl⟩

theorem followed_iff (sound : r.Sound) {base mount : String}
    (routed : r.lookup? request.method (r.lookupPath request) =
      some (chain, join base (filesPattern mount), hit))
    (once : (Pattern.ofText (join base (filesPattern mount))).names.count parameter ≤ 1)
    {root : List String} {path : FilePath}
    (tested : tested? root (hit.params.value parameter) = some path)
    (unslashed : Unslashed (hit.params.value parameter)) {again : Request}
    (follows : again.uri.path = location (hit.params.value parameter)) {m : Method}
    {chain' : Chain} {hit' : Hit}
    (found : r.lookup? m (r.lookupPath again) =
      some (chain', join base (filesPattern mount), hit')) :
    (∃ place, tested? root (hit'.params.value parameter) = some place ∧
      place.names = path.names) ↔ AtRoot (join base (filesPattern mount)) := by
  have htemplate := template_of_captured sound routed unslashed.nonempty
  obtain ⟨front, back, hfirst⟩ := exists_behind sound routed htemplate
  have hvalue : (hit.params.value parameter).toList = Candidate.withoutSlash back := by
    rw [hfirst.value once, String.toList_ofList]
  rw [lookupPath_location hfirst.text hfirst.nonempty hvalue follows] at found
  obtain ⟨front', back', hsecond⟩ := exists_behind sound found htemplate
  refine hsecond.same_iff once tested unslashed.relative fun hm => hfirst.line ?_
  rw [hvalue] at hm
  exact Candidate.withoutSlash_subset back hm

/-- A client that asks a mount for a directory is sent to another place exactly when the parameter
does not end with a slash. That place is the path of the directory below the root of the files: what
stands for the group and the mount in the path of the request is not given back. So a request for it
that comes to the mount again is not for the same directory, unless the files are served at the
root. -/
theorem directory_location (sound : r.Sound) (w : World) (proper : request.uri.Proper)
    {base mount : String}
    (routed : r.lookup? request.method (r.lookupPath request) =
      some (chain, join base (filesPattern mount), hit))
    {i : Nat} {s : FileServer} {root : List String} (redirects : s.Redirects root) {n : Machine}
    (reached : Reaches chain (r.launch w request) n)
    (enters : Enters chain i (StaticFiles.handler s root) n) {path : FilePath}
    (tested : tested? root (hit.params.value parameter) = some path)
    (directory : s.entry? path = some .directory) :
    let pattern := join base (filesPattern mount)
    let raw := hit.params.value parameter
    let locations (x : Exchange) := x.context.writer.headers.getAll "location"
    let passed? := delegatedUri? raw n.exchange.context.request.uri
    ∃ x, Reaches chain n ⟨.handler i .done, n.waiting, x⟩ ∧
      (passed? = none ∨ ¬ Unslashed raw → locations x = locations n.exchange) ∧
      ∀ uri, passed? = some uri → Unslashed raw →
        x.context.writer.status = .temporaryRedirect ∧
        locations x = locations n.exchange ++
          [.ofText (location raw ++ String.ofList (Uri.tail uri.query))] ∧
        ((Pattern.ofText pattern).names.count parameter ≤ 1 →
          ∀ again : Request, again.uri.path = location raw → ∀ m chain' hit',
          r.lookup? m (r.lookupPath again) = some (chain', pattern, hit') →
          ((∃ place, tested? root (hit'.params.value parameter) = some place ∧
            place.names = path.names) ↔ AtRoot pattern)) := by
  intro pattern raw locations passed?
  have hparams : n.exchange.context.params = hit.params :=
    reached.params.trans (launch_params w routed)
  have hraw := r.value_proper w proper reached parameter
  rw [hparams] at hraw
  have hdelegated : delegated? s root (n.exchange.context.params.value parameter)
      n.exchange.context.request =
        passed?.map fun uri => { n.exchange.context.request with uri } := by
    rw [hparams, delegated?_eq, tested, Option.bind_some, directory, Option.bind_some]
  cases hpassed : passed? with
  | none =>
    rw [hpassed] at hdelegated
    exact ⟨_, reaches_missed enters hdelegated, fun _ => getAll_missed _ _, by simp⟩
  | some uri =>
    rw [hpassed] at hdelegated
    have hfor := forDirectory_iff tested directory hraw
      (r := { n.exchange.context.request with uri }) hpassed
    obtain ⟨hpath, hscheme, hauthority⟩ := parts_of_delegatedUri? hraw hpassed
    refine ⟨_, reaches_answered enters hdelegated, ?_, ?_⟩
    · rintro (h | h)
      · cases h
      · dsimp only [locations]
        rw [getAll_answered, redirects.otherwise _ (mt hfor.mp h), List.append_nil]
    · rintro _ ⟨⟩ unslashed
      obtain ⟨hstatus, hlocation⟩ := redirects.directory _ (hfor.mpr unslashed)
      refine ⟨hstatus, ?_, fun once again follows m chain' hit' found => ?_⟩
      · dsimp only [locations]
        rw [getAll_answered, hlocation, text_location hpath hscheme hauthority]
      · exact followed_iff sound routed once tested unslashed follows found

def nestedTree : FileTree := { files := [(["public", "css", "assets", "x", "a.css"], [])] }

def nested : Handler := StaticFiles.ofTree nestedTree ["public"]

def nestedRouter : Router :=
  (new {}).handleAll rootGroup ["GET", "HEAD"] (filesPattern "/assets") [nested]

theorem nested_sound : nestedRouter.Sound := (sound_new {}).handleAll rootGroup _ _ _

theorem nested_lookup? (path : String) (params : Params)
    (h : (Table.add {} "/assets/*filepath" [nested]).matcher.find? path =
      some ⟨0, params, "/assets/*filepath"⟩) :
    nestedRouter.lookup? "GET" path =
      some ([nested], "/assets/*filepath", ⟨0, params, "/assets/*filepath"⟩) := by
  have hget : nestedRouter.tables.get? "GET" =
      some (Table.add {} "/assets/*filepath" [nested]) := rfl
  obtain ⟨chain, pattern, hc, hp, hfind⟩ :=
    (nested_sound.tables.tables "GET" _ (Tables.mem_of_get? hget)).find?_of_hit h
  cases hc
  cases hp
  rw [lookup?, hget, Option.bind_some, hfind]

def nestedRequest : Request := { uri.rawPath := "/assets/css/assets/x" }

theorem directory_location_nested :
    let n : Machine :=
      ⟨.handler 0 nested.program, [], (nestedRouter.launch {} nestedRequest).exchange.enter 0⟩
    let again := nestedRouter.lookup? "GET" "/css/assets/x/"
    (new {}).serveFiles rootGroup "/assets" nested = .ok nestedRouter ∧
    (FileServer.ofTree nestedTree ["public"]).Redirects ["public"] ∧
    Reaches [nested] (nestedRouter.launch {} nestedRequest) n ∧ Enters [nested] 0 nested n ∧
    (∃ x, Reaches [nested] n ⟨.handler 0 .done, [], x⟩ ∧
      x.context.writer.status = .temporaryRedirect ∧
      x.context.writer.headers.getAll "location" = [.ofText "/css/assets/x/"]) ∧
    again.map (·.2.2.params) = some [("filepath", "x")] ∧
    ¬ ∃ place, tested? ["public"] "x" = some place ∧
      place.names = ["public", "css", "assets", "x"] := by
  intro n again
  have hproper : nestedRequest.uri.Proper :=
    Uri.proper_of_parse (show Uri.parse "/assets/css/assets/x" = .ok nestedRequest.uri from rfl)
  have hpattern : join "/" (filesPattern "/assets") = "/assets/*filepath" := by decide +kernel
  have hrouted := nested_lookup? "/assets/css/assets/x" [("filepath", "css/assets/x")]
    (by decide +kernel)
  have hagain := nested_lookup? "/css/assets/x/" [("filepath", "x")] (by decide +kernel)
  have hredirects := FileServer.redirects_ofTree nestedTree ["public"]
  obtain ⟨hreached, henters, -⟩ := nestedRouter.reaches_first {} nestedRequest hrouted
  have htested : tested? ["public"] "css/assets/x" =
      some ⟨["public", "css", "assets", "x"], false⟩ := by decide +kernel
  have hdecoded : decode? (String.ofList (bare "css/assets/x")) = some "css/assets/x" := by
    decide +kernel
  have hunslashed : Unslashed "css/assets/x" := by
    refine ⟨by decide +kernel, by decide +kernel, fun s hs => ?_⟩
    obtain rfl := Option.some.inj (hdecoded.symm.trans hs)
    decide
  rw [← hpattern] at hrouted hagain
  obtain ⟨x, hends, -, hlocation⟩ := directory_location nested_sound {} hproper hrouted
    hredirects hreached henters htested (by decide +kernel)
  obtain ⟨hstatus, hsent, hfollowed⟩ := hlocation { rawPath := "/css/assets/x" }
    (by decide +kernel) hunslashed
  refine ⟨rfl, hredirects, hreached, henters, ⟨x, hends, hstatus, hsent.trans (by decide +kernel)⟩,
    congrArg (Option.map _) hagain, fun hsame => ?_⟩
  have hroot := (hfollowed (by decide +kernel) { uri.rawPath := "/css/assets/x/" }
    (by decide +kernel) "GET" _ _ hagain).mp hsame
  rw [hpattern] at hroot
  exact absurd hroot (by decide +kernel)

/-- A client that asks for a directory right below the root of a mount is sent out of the mount, also
when it asks with the slash. -/
theorem mounted_directory_astray :
    let t : FileTree := { files := [(["public", "css", "site.css"], [])] }
    t.isDirectory ["public", "css"] = true ∧
    ∃ r, (new {}).serveFiles rootGroup "/assets" (StaticFiles.ofTree t ["public"]) = .ok r ∧
      (∀ asked ∈ ["/assets/css", "/assets/css/"],
        let answer := (r.dispatch {} { uri.rawPath := asked }).outcome.toOption
        answer.map (·.status) = some .temporaryRedirect ∧
        answer.map (·.headers.getAll "location") = some [.ofText "/css/"]) ∧
      (r.lookup? "GET" "/css/").isNone :=
  ⟨by decide, _, rfl, by decide +kernel⟩

end Router

end Gateway
