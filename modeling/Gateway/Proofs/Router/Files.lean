import Gateway.Proofs.Files.Resolution
import Gateway.Proofs.Route.Canonical
import Gateway.Proofs.Router.Access

/-! What handlers for static files can answer, wherever their parameter comes from: nothing but the
file that was tested, below their root. -/

namespace Gateway

open Machine

namespace Machine

theorem Step.params {chain : Chain} {m n : Machine} (h : Step chain m n) :
    n.exchange.context.params = m.exchange.context.params := by
  cases h with
  | act => exact Operation.apply_params _ _
  | _ => rfl

theorem Reaches.params {chain : Chain} {m n : Machine} (h : Reaches chain m n) :
    n.exchange.context.params = m.exchange.context.params := by
  induction h with
  | refl => rfl
  | tail _ hs ih => exact hs.params.trans ih

end Machine

namespace StaticFiles

variable {chain : Chain} {i : Nat} {s : FileServer} {root : List String} {n : Machine}

def missed (x : Exchange) : Exchange := (Operation.abort .notFound).apply x

theorem missed_status {x : Exchange} (running : x.context.aborted = false) :
    (missed x).context.writer.status = .notFound := by
  simp [missed, Operation.apply, Exchange.mapContext, Context.abort, running, Context.setStatus,
    Context.mapWriter, Writer.setStatus, Writer.status]

theorem getAll_missed (x : Exchange) (name : HeaderName) :
    (missed x).context.writer.headers.getAll name = x.context.writer.headers.getAll name := by
  simp only [missed, Operation.apply, Exchange.mapContext, Context.abort]
  split <;> rfl

def answered (x : Exchange) (response : Response) : Exchange :=
  (Operation.writeResponse response).apply (Operation.takeBody.apply x)

theorem getAll_answered (x : Exchange) (response : Response) (name : HeaderName) :
    (answered x response).context.writer.headers.getAll name =
      x.context.writer.headers.getAll name ++ response.headers.getAll name :=
  Headers.getAll_appendAll _ _ name

theorem reaches_missed (enters : Enters chain i (handler s root) n)
    (h : delegated? s root (n.exchange.context.params.value parameter)
      n.exchange.context.request = none) :
    Reaches chain n ⟨.handler i .done, n.waiting, missed n.exchange⟩ := by
  obtain ⟨activity, ws, x⟩ := n
  obtain rfl : activity = .handler i (program s root) := enters.activity
  refine .head .consult ?_
  dsimp only at h ⊢
  rw [h]
  exact .single (.acts rfl)

theorem reaches_answered (enters : Enters chain i (handler s root) n) {r : Request}
    (h : delegated? s root (n.exchange.context.params.value parameter)
      n.exchange.context.request = some r) :
    Reaches chain n ⟨.handler i .done, n.waiting, answered n.exchange (s.answer r)⟩ := by
  refine enters.reaches_done ?_ rfl rfl
  simp only [h]

end StaticFiles

namespace Router

theorem lookupPath_proper (r : Router) {request : Request} (proper : request.uri.Proper) :
    ∀ c ∈ (r.lookupPath request).toList, c ≠ '?' ∧ c ≠ '#' := by
  unfold lookupPath
  split
  · intro c hc
    rcases Path.mem_clean hc with rfl | hc
    · decide
    · exact proper.path c hc
  · exact proper.path

theorem launch_within (r : Router) (w : World) (request : Request) :
    (r.launch w request).exchange.context.params.Within (r.lookupPath request).toList := by
  have hclean : (r.opening w request).context.params = [] := by
    have h := r.checkout_context
    exact congrArg Context.params h
  change ((r.chosen request).start (r.opening w request).context).params.Within _
  unfold chosen choose
  split
  · next chain pattern hit hfound =>
    obtain ⟨t, -, ht⟩ := Option.bind_eq_some_iff.mp hfound
    obtain ⟨hit', hhit, ht⟩ := Option.bind_eq_some_iff.mp ht
    obtain ⟨_, -, ht⟩ := Option.bind_eq_some_iff.mp ht
    obtain ⟨_, -, ht⟩ := Option.bind_eq_some_iff.mp ht
    cases ht
    exact Matcher.find?_within hhit
  · split <;> exact hclean ▸ Params.within_nil _

/-- Whatever part of the path a route took for the parameter. A parameter that is refused is
answered without a look at the files. Any other one stands for a place below the root. When something
is there the file server is asked, and no file is served but the one at that very place or the index
file of the directory there. -/
theorem files_confined (r : Router) (w : World) {request : Request}
    (proper : request.uri.Proper) {i : Nat} {s : FileServer} {root : List String}
    (resolves : s.Resolves root) {n : Machine}
    (reached : Reaches (r.chosen request).chain (r.launch w request) n)
    (enters : Enters (r.chosen request).chain i (StaticFiles.handler s root) n) :
    let chain := (r.chosen request).chain
    let x := n.exchange
    let raw := x.context.params.value StaticFiles.parameter
    let uri? := StaticFiles.delegatedUri? raw x.context.request.uri
    (StaticFiles.missed x).context.writer.status = .notFound ∧
    (StaticFiles.Refused raw →
      Reaches chain n ⟨.handler i .done, n.waiting, StaticFiles.missed x⟩ ∧
      ∀ s', StaticFiles.delegated? s' root raw x.context.request = none) ∧
    (¬ StaticFiles.Refused raw → ∃ path f, StaticFiles.tested? root raw = some path ∧
      StaticFiles.relative? raw = some f ∧ path.names = root ++ StaticFiles.names f ∧
      (∀ name ∈ StaticFiles.names f, PathPart.Plain name) ∧
      (s.entry? path = none ∨ uri? = none →
        Reaches chain n ⟨.handler i .done, n.waiting, StaticFiles.missed x⟩) ∧
      ∀ uri, s.entry? path ≠ none → uri? = some uri →
        let passed := { x.context.request with uri }
        Reaches chain n
          ⟨.handler i .done, n.waiting, StaticFiles.answered x (s.answer passed)⟩ ∧
        ∀ file, s.served? passed = some file →
          file = path.names ∨ s.HasDirectory path.names ∧ file = path.names ++ ["index.html"]) := by
  intro chain x raw uri?
  have hraw : ∀ c ∈ raw.toList, c ≠ '?' ∧ c ≠ '#' := by
    have hwithin := r.launch_within w request
    rw [← reached.params] at hwithin
    exact fun c hc => r.lookupPath_proper proper c (hwithin.value _ hc)
  refine ⟨StaticFiles.missed_status enters.running, fun refused => ?_, fun accepted => ?_⟩
  · have hnone := fun s' => StaticFiles.delegated?_of_refused refused s' root x.context.request
    exact ⟨StaticFiles.reaches_missed enters (hnone s), hnone⟩
  · rw [← StaticFiles.tested?_eq_none_iff root raw] at accepted
    obtain ⟨path, hpath⟩ := Option.ne_none_iff_exists'.mp accepted
    obtain ⟨f, hf, hlevel, hbelow⟩ := StaticFiles.exists_of_tested? hpath
    have hdelegated : StaticFiles.delegated? s root raw x.context.request =
        (s.entry? path).bind fun _ => uri?.map fun uri => { x.context.request with uri } := by
      rw [StaticFiles.delegated?_eq, hpath]
      rfl
    refine ⟨path, f, hpath, hf, hbelow, PathPart.plain_names f, fun hmissing => ?_, ?_⟩
    · refine StaticFiles.reaches_missed enters (hdelegated.trans ?_)
      rcases hmissing with h | h <;> simp [h]
    · intro uri hentry huri passed
      obtain ⟨entry, hentry⟩ := Option.ne_none_iff_exists'.mp hentry
      refine ⟨StaticFiles.reaches_answered enters (hdelegated.trans ?_), fun file hfile => ?_⟩
      · rw [hentry, huri]
        rfl
      · obtain ⟨names, hnames, hserved⟩ := resolves passed file hfile
        obtain rfl : names = StaticFiles.names f := by
          rcases StaticFiles.names?_of_relative? hf hlevel
            (StaticFiles.path_of_delegatedUri? hraw huri) with h | h
          · exact absurd (hnames.symm.trans h) (by simp)
          · exact Option.some.inj (hnames.symm.trans h)
        rwa [hbelow]

def assetsTree : FileTree :=
  { files := [(["public", "a.css"], Utf8.encode "b\x7b\x7d"), (["key"], Utf8.encode "secret")] }

def assets : Handler := StaticFiles.ofTree assetsTree ["public"]

def assetsRouter : Router := (Router.new {}).handle rootGroup "GET" "/assets/*filepath" [assets]

theorem assets_chosen (request : Request) (params : Params) (hm : request.method = "GET")
    (h : (Table.add {} "/assets/*filepath" [assets]).matcher.find?
      (assetsRouter.lookupPath request) = some ⟨0, params, "/assets/*filepath"⟩) :
    assetsRouter.chosen request = .route [assets] "/assets/*filepath" params := by
  have hget : assetsRouter.tables.get? request.method =
      some (Table.add {} "/assets/*filepath" [assets]) := by
    rw [hm]
    rfl
  have hsound := (sound_new {}).handle rootGroup "GET" "/assets/*filepath" [assets]
  obtain ⟨chain, pattern, hc, hp, hchoose⟩ := choose_of_hit hsound.tables hget h
  cases hc
  cases hp
  exact hchoose

def assetsEntered (request : Request) : Machine :=
  ⟨.handler 0 assets.program, [], (assetsRouter.launch {} request).exchange.enter 0⟩

theorem assets_entered {request : Request} {pattern : String} {params : Params}
    (h : assetsRouter.chosen request = .route [assets] pattern params) :
    let chain := (assetsRouter.chosen request).chain
    let n := assetsEntered request
    Reaches chain (assetsRouter.launch {} request) n ∧ Enters chain 0 assets n ∧
      n.exchange.context.params = params ∧ n.exchange.context.request = request := by
  unfold assetsEntered launch
  rw [h]
  exact ⟨.single (.enter (h := assets) rfl rfl), ⟨rfl, rfl, rfl, rfl⟩, rfl, rfl⟩

def climbing : Request := { uri.rawPath := "/assets/%2e%2e/key" }

def spelled : Request := { uri.rawPath := "/x/assets//%61.css/" }

theorem files_confined_spelled :
    let launched (request : Request) := assetsRouter.launch {} request
    let chain (request : Request) := (assetsRouter.chosen request).chain
    (FileServer.ofTree assetsTree ["public"]).Resolves ["public"] ∧
    (∀ request ∈ [climbing, spelled], request.uri.Proper ∧
      Reaches (chain request) (launched request) (assetsEntered request) ∧
      Enters (chain request) 0 assets (assetsEntered request)) ∧
    Reaches (chain climbing) (assetsEntered climbing)
      ⟨.handler 0 .done, [], StaticFiles.missed (assetsEntered climbing).exchange⟩ ∧
    ∃ passed response,
      FileServer.fileFor? assetsTree ["public"] passed = some ["public", "a.css"] ∧
      response.body = Utf8.encode "b\x7b\x7d" ∧
      Reaches (chain spelled) (assetsEntered spelled)
        ⟨.handler 0 .done, [], StaticFiles.answered (assetsEntered spelled).exchange response⟩ := by
  intro launched chain
  have hresolves := FileServer.resolves_ofTree assetsTree ["public"]
  have hproper : climbing.uri.Proper :=
    Uri.proper_of_parse (show Uri.parse "/assets/%2e%2e/key" = .ok climbing.uri from rfl)
  have hproper' : spelled.uri.Proper :=
    Uri.proper_of_parse (show Uri.parse "/x/assets//%61.css/" = .ok spelled.uri from rfl)
  obtain ⟨hreached, henters, hparams, -⟩ := assets_entered <|
    assets_chosen climbing [("filepath", "%2e%2e/key")] rfl (by decide +kernel)
  obtain ⟨hreached', henters', hparams', hrequest⟩ := assets_entered <|
    assets_chosen spelled [("filepath", "/%61.css")] rfl (by decide +kernel)
  refine ⟨hresolves, ?_, ?_, ?_⟩
  · simp only [List.forall_mem_cons]
    exact ⟨⟨hproper, hreached, henters⟩, ⟨hproper', hreached', henters'⟩, by simp⟩
  · obtain ⟨-, hmissed, -⟩ := files_confined assetsRouter {} hproper hresolves hreached henters
    rw [hparams] at hmissed
    have hrefused : StaticFiles.Refused "%2e%2e/key" :=
      (StaticFiles.tested?_eq_none_iff ["public"] _).mp (by decide +kernel)
    exact (hmissed hrefused).1
  · obtain ⟨-, -, hserved⟩ :=
      files_confined assetsRouter {} hproper' hresolves hreached' henters'
    rw [hparams', hrequest] at hserved
    have htested : StaticFiles.tested? ["public"] "/%61.css" =
        some ⟨["public", "a.css"], false⟩ := by decide +kernel
    have haccepted : ¬ StaticFiles.Refused "/%61.css" := by
      rw [← StaticFiles.tested?_eq_none_iff ["public"], htested]
      exact Option.some_ne_none _
    obtain ⟨path, f, hpath, -, -, -, -, hanswered⟩ := hserved haccepted
    obtain rfl := Option.some.inj (htested.symm.trans hpath)
    let passed : Request := { spelled with uri := { rawPath := "/%61.css" } }
    have hfile : FileServer.fileFor? assetsTree ["public"] passed = some ["public", "a.css"] := by
      decide +kernel
    obtain ⟨hends, -⟩ := hanswered passed.uri (by decide +kernel) (by decide +kernel)
    have hbody : (FileServer.serve assetsTree ["public"] passed).body =
        Utf8.encode "b\x7b\x7d" := by decide +kernel
    exact ⟨passed, _, hfile, hbody, hends⟩

end Router

end Gateway
