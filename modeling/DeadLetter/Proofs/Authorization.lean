import DeadLetter.Admin.Router

/-!
# No administration without the token

Outside development the token check cannot be disabled, and it passes exactly the requests that bring the token which
the environment sets (`Auth.check_eq_ok_iff`). `namesQueue_iff` : the paths on which a queue is named are the protected
routes. `unauthorized_refused` : without the token such a request is refused before anything is looked at, so its answer
tells nothing about the registry, the queues or the name.
-/

namespace DeadLetter.Admin

set_option autoImplicit false

/-! ## The environment -/

namespace Environment
variable {vars vars' : Dict String} {e : Environment}

theorem adminToken_of_read (h : read vars = .ok e) :
    e.adminToken = (vars.get? "QUEUE_ADMIN_TOKEN").filter (!Text.allBlank ·) := by
  unfold read at h
  split at h
  · cases h
  · cases h
    rfl

theorem disableAuth_of_read (h : read vars = .ok e) (hstage : e.stage ≠ .development) : e.disableAuth = false := by
  unfold read at h
  split at h
  · cases h
  · cases h
    simp only [Bool.and_eq_false_imp, beq_iff_eq]
    exact fun hdev => absurd hdev hstage

theorem read_congr (h : read vars = .ok e) (hstage : e.stage ≠ .development)
    (hvars : ∀ name, name ≠ "DISABLE_AUTH" → vars'.get? name = vars.get? name) : read vars' = .ok e := by
  have hname : stageName vars' = stageName vars := by rw [stageName, stageName, hvars _ (by decide)]
  have hseconds : ∀ name, name ≠ "DISABLE_AUTH" → seconds? vars' name = seconds? vars name := fun name hne => by
    rw [seconds?, seconds?, hvars name hne]
  have hdisabled := disableAuth_of_read h hstage
  unfold read at h ⊢
  rw [hname]
  split at h
  · cases h
  · cases h
    dsimp only at hstage hdisabled
    rw [hdisabled, beq_eq_false_iff_ne.mpr hstage, Bool.false_and, hvars "QUEUE_ADMIN_TOKEN" (by decide),
      hvars "PORT" (by decide), hvars "HMPPS_SQS_CONFIG" (by decide), hseconds _ (by decide), hseconds _ (by decide),
      hseconds _ (by decide)]

end Environment

/-! ## The token check -/

namespace Auth
variable {a : Auth} {headers : Headers}

theorem bearer?_eq_some_iff (token : String) :
    bearer? headers = some token ↔
      authorization? headers = some ("Bearer " ++ token) ∧ isPlainText ("Bearer " ++ token) = true := by
  unfold bearer?
  cases authorization? headers with
  | none => simp
  | some value =>
    simp only [Option.bind_eq_bind, Option.bind_some, Option.some.injEq]
    split
    · next hplain =>
      rw [Text.dropPrefix?_eq_some_iff]
      exact ⟨fun h => ⟨h, h ▸ hplain⟩, And.left⟩
    · next hplain => exact ⟨nofun, fun ⟨hvalue, h⟩ => absurd (hvalue ▸ h) hplain⟩

/-- A check that is not disabled passes exactly the token. -/
theorem check_eq_ok_iff (h : a.disabled = false) :
    a.check headers = .ok () ↔ ∃ token, a.token = some token ∧
      authorization? headers = some ("Bearer " ++ token) ∧ isPlainText ("Bearer " ++ token) = true := by
  simp only [← bearer?_eq_some_iff]
  unfold check
  rw [h, if_neg Bool.false_ne_true]
  split
  · next hnone => simp [hnone]
  · next token hsome => simp [hsome]

theorem status_of_check {f : Failure} (h : a.check headers = .error f) : f.status = 401 := by
  unfold check at h
  split at h
  · cases h
  · split at h
    · cases h
      rfl
    · split at h
      · cases h
      · cases h
        rfl

end Auth

/-- A request brings the token that the variables set, which is not blank. -/
def Authorized (vars : Dict String) (headers : Headers) : Prop :=
  ∃ token, vars.get? "QUEUE_ADMIN_TOKEN" = some token ∧ Text.allBlank token = false ∧
    Auth.authorization? headers = some ("Bearer " ++ token)

/-- Outside development a request without the token does not pass. -/
theorem Auth.check_unauthorized {vars : Dict String} {e : Environment} {headers : Headers}
    (hread : Environment.read vars = .ok e) (hstage : e.stage ≠ .development) (h : ¬ Authorized vars headers) :
    ∃ f, (Auth.ofEnvironment e).check headers = .error f ∧ f.status = 401 := by
  cases hcheck : (Auth.ofEnvironment e).check headers with
  | error f => exact ⟨f, rfl, status_of_check hcheck⟩
  | ok _ =>
    obtain ⟨token, htoken, hheader, _⟩ :=
      (check_eq_ok_iff (Environment.disableAuth_of_read hread hstage)).mp hcheck
    obtain ⟨hvar, hblank⟩ := Option.filter_eq_some_iff.mp ((Environment.adminToken_of_read hread).symm.trans htoken)
    exact absurd ⟨token, hvar, by simpa using hblank, hheader⟩ h

/-! ## The protected routes -/

/-- The beginnings of the paths on which a queue is named. -/
def namedStarts : List String :=
  ["/queue-admin/retry-dlq/", "/queue-admin/purge-queue/", "/queue-admin/get-dlq-messages/"]

/-- A queue is named on a path: after the beginning follows a text that is not empty and has no slash. -/
def NamesQueue (path : String) : Prop :=
  ∃ start ∈ namedStarts, ∃ name, name ≠ "" ∧ '/' ∉ name.toList ∧ path = start ++ name

namespace Route

theorem nameAfter?_eq_some_iff (start path name : String) :
    nameAfter? start path = some name ↔ name ≠ "" ∧ '/' ∉ name.toList ∧ path = start ++ name := by
  unfold nameAfter?
  constructor
  · intro h
    cases hdrop : Text.dropPrefix? path start with
    | none => simp [hdrop] at h
    | some rest =>
      simp only [hdrop, Option.bind_eq_bind, Option.bind_some, Option.ite_none_left_eq_some, Option.some.injEq,
        Bool.or_eq_true, String.isEmpty_iff, List.contains_iff_mem, not_or] at h
      obtain ⟨⟨hempty, hslash⟩, rfl⟩ := h
      exact ⟨hempty, hslash, (Text.dropPrefix?_eq_some_iff path start rest).mp hdrop⟩
  · rintro ⟨hempty, hslash, rfl⟩
    rw [(Text.dropPrefix?_eq_some_iff _ start name).mpr rfl]
    simp [hempty, hslash]

theorem nameAfter?_eq_none {start path : String} (h : Text.hasPrefix path start = false) :
    nameAfter? start path = none := by
  rw [nameAfter?, Text.dropPrefix?, h]
  rfl

/-- The fixed paths are none on which a queue is named. -/
theorem ne_of_namesQueue {path : String} (h : NamesQueue path) :
    path ≠ "/docs" ∧ path ≠ "/openapi.json" ∧ path ≠ "/health" ∧ path ≠ "/queue-admin/retry-all-dlqs" := by
  obtain ⟨start, hstart, name, _, _, rfl⟩ := h
  have hne : ∀ fixed : String, Text.hasPrefix fixed start = false → start ++ name ≠ fixed := by
    rintro _ hfalse rfl
    rw [(Text.hasPrefix_iff _ start).mpr ⟨name, rfl⟩] at hfalse
    cases hfalse
  simp only [namedStarts, List.mem_cons, List.not_mem_nil, or_false] at hstart
  rcases hstart with rfl | rfl | rfl <;>
    exact ⟨hne _ (by decide), hne _ (by decide), hne _ (by decide), hne _ (by decide)⟩

/-- The paths on which a queue is named are those of the protected routes. -/
theorem namesQueue_iff (path : String) :
    NamesQueue path ↔ ∃ route, ofPath? path = some route ∧ route.isProtected = true := by
  constructor
  · intro h
    obtain ⟨h1, h2, h3, h4⟩ := ne_of_namesQueue h
    unfold ofPath?
    rw [if_neg h1, if_neg h2, if_neg h3, if_neg h4]
    obtain ⟨start, hstart, name, hempty, hslash, rfl⟩ := h
    have hname := (nameAfter?_eq_some_iff start _ name).mpr ⟨hempty, hslash, rfl⟩
    simp only [namedStarts, List.mem_cons, List.not_mem_nil, or_false] at hstart
    rcases hstart with rfl | rfl | rfl
    · exact ⟨.retry name, by rw [hname]; rfl, rfl⟩
    · exact ⟨.purge name, by rw [hname, nameAfter?_eq_none (by simp [Text.hasPrefix, List.isPrefixOf])]; rfl, rfl⟩
    · exact ⟨.inspect name, by
        rw [hname, nameAfter?_eq_none (by simp [Text.hasPrefix, List.isPrefixOf]),
          nameAfter?_eq_none (by simp [Text.hasPrefix, List.isPrefixOf])]
        rfl, rfl⟩
  · rintro ⟨route, hroute, hprotected⟩
    have key : ∀ start ∈ namedStarts, ∀ make : String → Route,
        (nameAfter? start path).map make = some route → NamesQueue path := by
      intro start hstart make hmap
      obtain ⟨name, hname, _⟩ := Option.map_eq_some_iff.mp hmap
      exact ⟨start, hstart, name, (nameAfter?_eq_some_iff start path name).mp hname⟩
    unfold ofPath? at hroute
    iterate 4
      split at hroute
      · cases hroute
        cases hprotected
    simp only [Option.orElse_eq_orElse, Option.orElse_eq_or, Option.or_eq_some_iff] at hroute
    rcases hroute with h | ⟨_, h | ⟨_, h⟩⟩
    · exact key _ (by decide) _ h
    · exact key _ (by decide) _ h
    · exact key _ (by decide) _ h

end Route

/-! ## Requests without the token -/

theorem App.respond_refused {app : App} {r : Request} {f : Failure} (h : app.auth.check r.headers = .error f)
    (hpath : ∀ route, Route.ofPath? r.path = some route → route.isProtected = true) (w : World) :
    ((app.respond r).run w).1.status = f.status ∧ ((app.respond r).run w).2 = w := by
  unfold respond
  split
  · rw [respondElsewhere, h]
    dsimp only
    split <;> exact ⟨rfl, rfl⟩
  · next route hroute =>
    rw [hpath route hroute, if_pos rfl, h]
    dsimp only
    split <;> exact ⟨rfl, rfl⟩

theorem App.respond_of_namesQueue {app : App} {r : Request} {f : Failure} (h : app.auth.check r.headers = .error f)
    (hpath : NamesQueue r.path) (w : World) :
    (app.respond r).run w =
      (if r.method = "HEAD" then (Response.ofFailure f).dropBody else .ofFailure f, w) := by
  obtain ⟨route, hroute, hprotected⟩ := (Route.namesQueue_iff r.path).mp hpath
  rw [respond, hroute]
  dsimp only
  rw [hprotected, if_pos rfl, h]
  rfl

/-- Outside development, a request on which a queue is named and that does not bring the token is answered with status
401 and changes nothing. The answer depends on the variables and the headers only (and lacks its body for `HEAD`): it is
the same for all registries, stages, worlds, routes and names. The variable that disables the token check has no effect,
and without a token no request outside the public routes is served. -/
theorem unauthorized_refused {vars : Dict String} {e : Environment} (hread : Environment.read vars = .ok e)
    (hstage : e.stage = .production ∨ e.stage = .staging) :
    (∀ headers, ¬ Authorized vars headers → ∃ refusal : Response, refusal.status = 401 ∧
      ∀ (app : App) (r : Request) (w : World), app.auth = .ofEnvironment e → r.headers = headers →
        NamesQueue r.path →
          (app.respond r).run w = (if r.method = "HEAD" then refusal.dropBody else refusal, w)) ∧
    (∀ vars' : Dict String, (∀ name, name ≠ "DISABLE_AUTH" → vars'.get? name = vars.get? name) →
      Environment.read vars' = .ok e) ∧
    ((∀ token, vars.get? "QUEUE_ADMIN_TOKEN" = some token → Text.allBlank token = true) →
      ∀ (app : App) (r : Request) (w : World), app.auth = .ofEnvironment e →
        (∀ route, Route.ofPath? r.path = some route → route.isProtected = true) →
          ((app.respond r).run w).1.status = 401 ∧ ((app.respond r).run w).2 = w) := by
  have hdev : e.stage ≠ .development := by
    rcases hstage with h | h <;> rw [h] <;> decide
  refine ⟨fun headers hunauthorized => ?_, fun vars' hvars => Environment.read_congr hread hdev hvars, ?_⟩
  · obtain ⟨f, hcheck, hstatus⟩ := Auth.check_unauthorized hread hdev hunauthorized
    refine ⟨.ofFailure f, hstatus, ?_⟩
    rintro app r w hauth rfl hpath
    exact App.respond_of_namesQueue (hauth ▸ hcheck) hpath w
  · intro hblank app r w hauth hpath
    have hunauthorized : ¬ Authorized vars r.headers := by
      rintro ⟨token, htoken, hnonblank, _⟩
      rw [hblank token htoken] at hnonblank
      cases hnonblank
    obtain ⟨f, hcheck, hstatus⟩ := Auth.check_unauthorized hread hdev hunauthorized
    rw [← hstatus]
    exact App.respond_refused (hauth ▸ hcheck) hpath w

/-- In production with the token `t` and the check disabled, a retry with another token is refused. -/
theorem unauthorized_refused_wrong :
    let vars : Dict String := [("APP_ENV", "production"), ("DISABLE_AUTH", "true"), ("QUEUE_ADMIN_TOKEN", "t")]
    let request : Request := ⟨"PUT", "/queue-admin/retry-dlq/a-dlq", "", [("Authorization", "Bearer u")]⟩
    ∃ e, Environment.read vars = .ok e ∧ e.stage = .production ∧ ∀ registry w,
      let app : App := ⟨e.stage, .ofEnvironment e, registry, .double⟩
      ((app.respond request).run w).1.status = 401 ∧ ((app.respond request).run w).2 = w := by
  intro vars request
  have hstage : (Environment.read vars).toOption.map (·.stage) = some .production := by decide +kernel
  have hunauthorized : ¬ Authorized vars request.headers := by
    rintro ⟨token, htoken, _, hheader⟩
    obtain rfl : token = "t" := Option.some.inj (htoken.symm.trans (by decide +kernel))
    exact absurd hheader (by decide +kernel)
  have hpath : NamesQueue request.path :=
    ⟨"/queue-admin/retry-dlq/", by decide, "a-dlq", by decide, by decide, by decide⟩
  cases hread : Environment.read vars with
  | error name =>
    rw [hread] at hstage
    cases hstage
  | ok e =>
    rw [hread] at hstage
    have hproduction : e.stage = .production := Option.some.inj hstage
    obtain ⟨refusal, hstatus, hrun⟩ := (unauthorized_refused hread (Or.inl hproduction)).1 _ hunauthorized
    refine ⟨e, rfl, hproduction, fun registry w => ?_⟩
    intro app
    rw [hrun app request w rfl rfl hpath]
    exact ⟨hstatus, rfl⟩

end DeadLetter.Admin
