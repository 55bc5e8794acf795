import DeadLetter.Proofs.Authorization

/-!
# Which token checks can be passed

A token check that is configured (`Auth.isConfigured`) is disabled or has a token that is not blank. It can be passed
(`Auth.Passable`) if it is disabled or the token is plain text, since a header that is not counts as missing. A header
value admits to the protected routes then (`Auth.exists_admits`), and else they are shut for all requests
(`Auth.shut_of_not_passable`). `Auth.exists_admits_iff` says which variables open the routes.
-/

namespace DeadLetter.Admin

set_option autoImplicit false

namespace Auth
variable {a : Auth}

/-- With a value of the `Authorization` header all requests for protected routes go on to the route. -/
def Admits (a : Auth) (value : String) : Prop :=
  ∀ (app : App) (r : Request) (route : Route), app.auth = a → authorization? r.headers = some value →
    Route.ofPath? r.path = some route → route.isProtected = true → app.respond r = app.dispatch r route

/-- All requests on which a queue is named are refused and change nothing, whatever headers they have. -/
def Shut (a : Auth) : Prop :=
  ∀ (app : App) (r : Request) (w : World), app.auth = a → NamesQueue r.path →
    ((app.respond r).run w).1.status = 401 ∧ ((app.respond r).run w).2 = w

theorem isPlainText_append (s t : String) : isPlainText (s ++ t) = (isPlainText s && isPlainText t) := by
  rw [isPlainText, String.toList_append, List.all_append]
  rfl

theorem isPlainText_bearer (token : String) : isPlainText ("Bearer " ++ token) = isPlainText token := by
  rw [isPlainText_append, show isPlainText "Bearer " = true by decide, Bool.true_and]

theorem admits_of_check {value : String}
    (h : ∀ headers, authorization? headers = some value → a.check headers = .ok ()) : a.Admits value := by
  rintro app r route rfl hvalue hroute hprotected
  rw [App.respond, hroute]
  dsimp only
  rw [if_pos hprotected, h r.headers hvalue]

theorem shut_of_check (h : ∀ headers, a.check headers ≠ .ok ()) : a.Shut := by
  rintro app r w rfl hpath
  cases hcheck : app.auth.check r.headers with
  | ok _ => exact absurd hcheck (h r.headers)
  | error f =>
    rw [App.respond_of_namesQueue hcheck hpath w]
    refine ⟨?_, rfl⟩
    split <;> exact status_of_check hcheck

/-- Whether a check can be passed: it is disabled, or has a token that a header can bring. -/
def Passable (a : Auth) : Prop := a.disabled = true ∨ ∃ token, a.token = some token ∧ isPlainText token = true

theorem exists_admits (h : a.Passable) : ∃ value, isPlainText value = true ∧ a.Admits value := by
  rcases h with hdisabled | ⟨token, htoken, hplain⟩
  · refine ⟨"", by decide, admits_of_check fun headers _ => ?_⟩
    rw [check, if_pos hdisabled]
  · have hvalue := (isPlainText_bearer token).trans hplain
    refine ⟨"Bearer " ++ token, hvalue, admits_of_check fun headers hheaders => ?_⟩
    cases hdisabled : a.disabled with
    | true => rw [check, if_pos hdisabled]
    | false => exact (check_eq_ok_iff hdisabled).mpr ⟨token, htoken, hheaders, hvalue⟩

theorem shut_of_not_passable (h : ¬ a.Passable) : a.Shut := by
  obtain ⟨hdisabled, htoken⟩ := not_or.mp h
  refine shut_of_check fun headers hcheck => ?_
  obtain ⟨token, hsome, _, hplain⟩ := (check_eq_ok_iff (Bool.eq_false_iff.mpr hdisabled)).mp hcheck
  exact htoken ⟨token, hsome, isPlainText_bearer token ▸ hplain⟩

theorem App.dispatch_post (app : App) {r : Request} (h : r.method = "POST") (route : Route) :
    app.dispatch r route = pure (.empty 405) := by
  have hmethod : r.method ≠ route.method.name := by
    rw [h]
    cases route.method <;> decide
  have hhead : ¬ (r.method = "HEAD" ∧ route.method = .get) := fun hget => absurd (h.symm.trans hget.1) (by decide)
  rw [App.dispatch, if_neg hmethod, if_neg hhead]

/-- Routes that are shut admit no header value: a `POST` would be answered as such. -/
theorem Shut.not_admits (h : a.Shut) (value : String) : ¬ a.Admits value := by
  intro hadmits
  let app : App := ⟨.production, a, .ofHandles [] [] [] ⟨[]⟩, .double⟩
  let r : Request := ⟨"POST", "/queue-admin/retry-dlq/a", "", [("Authorization", value)]⟩
  have hpath : NamesQueue r.path := ⟨"/queue-admin/retry-dlq/", by decide, "a", by decide, by decide, rfl⟩
  have hvalue : authorization? r.headers = some value := by
    have hname : ("Authorization".toLower == "authorization") = true := by decide +kernel
    rw [authorization?, List.find?_cons, hname]
    rfl
  obtain ⟨route, hroute, hprotected⟩ := (Route.namesQueue_iff r.path).mp hpath
  have hstatus := (h app r {} rfl hpath).1
  rw [hadmits app r route rfl hvalue hroute hprotected, App.dispatch_post app rfl] at hstatus
  exact absurd hstatus (by decide)

section Environment
variable {vars : Dict String} {e : Environment}

theorem not_passable_of_unconfigured (hnone : (ofEnvironment e).isConfigured = false) : ¬ (ofEnvironment e).Passable := by
  obtain ⟨hdisabled, hnone⟩ := Bool.or_eq_false_iff.mp hnone
  rintro (h | ⟨token, h, _⟩)
  · exact absurd h (hdisabled ▸ Bool.false_ne_true)
  · rw [h] at hnone
    cases hnone

/-- A check that is configured can be passed if it is disabled or the variable with the token is plain text. -/
theorem passable_iff_of_read (hread : Environment.read vars = .ok e)
    (hconfigured : (ofEnvironment e).isConfigured = true) :
    (ofEnvironment e).Passable ↔
      e.disableAuth = true ∨ ∃ token, vars.get? "QUEUE_ADMIN_TOKEN" = some token ∧ isPlainText token = true := by
  unfold Passable ofEnvironment
  cases hdisabled : e.disableAuth with
  | true => exact ⟨fun _ => Or.inl rfl, fun _ => Or.inl rfl⟩
  | false =>
    rw [isConfigured, ofEnvironment, hdisabled, Bool.false_or] at hconfigured
    obtain ⟨token, htoken⟩ := Option.isSome_iff_exists.mp hconfigured
    -- the variable is set to the token, so both sides speak of the same text
    have hfilter := (Environment.adminToken_of_read hread).symm.trans htoken
    rw [htoken, (Option.filter_eq_some_iff.mp hfilter).1]

/-- A check that is not configured shuts the protected routes. One that is configured can be passed if it is disabled or
the token is plain text, and only then: with any other token the routes are shut as well. -/
theorem exists_admits_iff (hread : Environment.read vars = .ok e) :
    let a := ofEnvironment e
    (a.isConfigured = false → a.Shut) ∧
    (a.isConfigured = true → ((∃ value, isPlainText value = true ∧ a.Admits value) ↔
      e.disableAuth = true ∨ ∃ token, vars.get? "QUEUE_ADMIN_TOKEN" = some token ∧ isPlainText token = true)) ∧
    (¬ (∃ value, isPlainText value = true ∧ a.Admits value) ↔ a.Shut) := by
  intro a
  have hiff : (∃ value, isPlainText value = true ∧ a.Admits value) ↔ a.Passable := by
    refine ⟨fun ⟨value, _, hadmits⟩ => Classical.byContradiction fun hnot => ?_, exists_admits⟩
    exact (shut_of_not_passable hnot).not_admits value hadmits
  refine ⟨fun hnone => shut_of_not_passable (not_passable_of_unconfigured hnone), fun hconfigured => ?_, ?_, ?_⟩
  · exact hiff.trans (passable_iff_of_read hread hconfigured)
  · exact fun hnone => shut_of_not_passable fun hpass => hnone (hiff.mpr hpass)
  · rintro hshut ⟨value, _, hadmits⟩
    exact hshut.not_admits value hadmits

end Environment

/-- A token with a letter outside ASCII is configured, but no request can bring it. -/
theorem exists_admits_iff_umlaut :
    ∃ e, Environment.read [("QUEUE_ADMIN_TOKEN", "tök")] = .ok e ∧ (ofEnvironment e).isConfigured = true ∧
      (ofEnvironment e).Shut := by
  have hconfigured : (Environment.read [("QUEUE_ADMIN_TOKEN", "tök")]).toOption.map
      (fun e => ((ofEnvironment e).isConfigured, e.disableAuth)) = some (true, false) := by decide +kernel
  cases hread : Environment.read [("QUEUE_ADMIN_TOKEN", "tök")] with
  | error name =>
    rw [hread] at hconfigured
    cases hconfigured
  | ok e =>
    rw [hread] at hconfigured
    obtain ⟨hyes, hdisabled⟩ := Prod.mk.inj (Option.some.inj hconfigured)
    obtain ⟨_, hiff, hshut⟩ := exists_admits_iff hread
    refine ⟨e, rfl, hyes, hshut.mp fun hadmits => ?_⟩
    rcases (hiff hyes).mp hadmits with h | ⟨token, htoken, hplain⟩
    · exact absurd h (hdisabled ▸ Bool.false_ne_true)
    · obtain rfl : token = "tök" := Option.some.inj (htoken.symm.trans (by decide +kernel))
      exact absurd hplain (by decide +kernel)

end Auth

end DeadLetter.Admin
