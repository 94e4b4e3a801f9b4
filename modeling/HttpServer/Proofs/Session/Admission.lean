import HttpServer.Proofs.Exchange.Performing
import HttpServer.Proofs.Exchange.Wire
import HttpServer.Server.Dispatch
import HttpServer.Session.Guard

/-!
# Whom the session middleware admits

The handler of a route runs for a request with a live session, for one that needs none, and for one
that the authorizer has allowed while its response was not over (`SessionControl.Judges`); for no
other (`Server.admission`). A session is started exactly where the authorizer has allowed one,
whether or not the request goes on: once, with one cookie that carries its id, which the handler
finds in the request. In all other cases the middleware leaves sessions and cookies as the code that
it calls has left them (`SessionControl.handedBack`).

The storage is any that answers and touches nothing but its sessions (`SessionStorage.Sound`); the
conditioner and the authorizer may do whatever a handler may do.
-/

namespace HttpServer

open Serving HttpServer.Action

/-- Handlers see the cookies of the request, with those that were put into it. -/
theorem Exchange.cookie?_view {ν : Type} (e : Exchange ν) (name : String) :
    e.view.cookie? name = e.request.bind fun request => request.cookie? name := rfl

/-- Nothing but the sessions and the journal has changed. -/
def Exchange.Stores {ν : Type} (e later : Exchange ν) : Prop :=
  later = { e with sessions := later.sessions, journal := later.journal }

theorem Exchange.Stores.request {ν : Type} {e later : Exchange ν} (h : e.Stores later) :
    later.request = e.request := by
  rw [h]

theorem Exchange.Stores.response {ν : Type} {e later : Exchange ν} (h : e.Stores later) :
    later.response = e.response := by
  rw [h]

/-- The storage always answers, and touches nothing but the sessions and the journal. -/
structure SessionStorage.Sound {ν : Type} (storage : SessionStorage ν) : Prop where
  state : ∀ id e, ∃ state later,
    exec (storage.state id).run e = (some (some state), later) ∧ e.Stores later
  create : ∀ e, ∃ id later,
    exec storage.create.run e = (some (some id), later) ∧ e.Stores later

/-- What creates a session touches nothing but the sessions and the journal. -/
theorem SessionStorage.Sound.stores {ν : Type} {storage : SessionStorage ν} (h : storage.Sound)
    {e created : Exchange ν} {id : String}
    (hcreate : exec storage.create.run e = (some (some id), created)) : e.Stores created := by
  obtain ⟨other, later, hlater, hstores⟩ := h.create e
  cases hlater.symm.trans hcreate
  exact hstores

/-- The storage of the server always answers. -/
theorem SessionStorage.sound_pool {ν : Type} : (SessionStorage.pool (ν := ν)).Sound where
  state id e := ⟨_, _, exec_run_ofOperation (.session (.state id)) e, rfl⟩
  create e := ⟨_, _, exec_run_ofOperation (.session .create) e, rfl⟩

/-- The verdict allows a session, whether or not the request goes on. -/
def Verdict.Allows : Verdict → Prop
  | .allowed => True
  | .allowedButStop => True
  | _ => False

namespace SessionControl

variable {ν : Type} (c : SessionControl ν)

/-- The request asks for the options of a resource, which needs no session. -/
def Exempts (v : View) : Prop := c.allowsOptions = true ∧ v.method = "OPTIONS"

/-- Sessions can be started on the path of the request. -/
def Covers (v : View) : Prop := c.authenticationPath.all (· == v.path) = true

instance (v : View) : Decidable (c.Exempts v) := by
  unfold Exempts
  infer_instance

instance (v : View) : Decidable (c.Covers v) := by
  unfold Covers
  infer_instance

/-- What the conditioner and the authorizer make of a request. -/
def judge : Answering ν Verdict := do
  c.conditioner
  c.authorizer.authorize

/-- The authorizer has come to a verdict, and the response was not over then. -/
def Judges (found : Exchange ν) (verdict : Verdict) (judged : Exchange ν) : Prop :=
  exec c.judge.run.run found = (some (some (.ok verdict)), judged) ∧
    judged.handle.conclusion.hasConcluded = false

/-- A session is started: the request needs one, has none and can get one here, and the authorizer
has allowed it. -/
def Starts (state : SessionState) (v : View) (found judged : Exchange ν) : Prop :=
  state ≠ .live ∧ ¬ c.Exempts v ∧ c.Covers v ∧
    ∃ verdict : Verdict, verdict.Allows ∧ c.Judges found verdict judged

/-- The exchange as the code that the middleware calls leaves it: the conditioner and the
authorizer, if they are asked at all, and negotiation, if the authorizer wants it. -/
def handedBack (state : SessionState) (v : View) (found : Exchange ν) : Exchange ν :=
  if state = .live ∨ c.Exempts v ∨ ¬ c.Covers v then found
  else match exec c.judge.run.run found with
    | (some (some (.ok .negotiate)), judged) =>
      if judged.handle.conclusion.hasConcluded then judged
      else (exec c.authorizer.negotiate.run.run judged).2
    | (_, judged) => judged

/-- The exchange after a session with the given id was created. -/
def start (created : Exchange ν) (id : String) : Exchange ν :=
  (created.changeHeader (·.addCookie (c.cookie id))).changeRequest (·.patchCookie c.cookieName id)

/-- The handler finds the id of the session that was started for it. -/
theorem cookie?_start {created : Exchange ν} (hrequest : created.request.isSome = true)
    (id : String) : (c.start created id).view.cookie? c.cookieName = some id := by
  obtain ⟨request, hrequest⟩ := Option.isSome_iff_exists.1 hrequest
  have hview : (c.start created id).view.request =
      some (request.patchCookie c.cookieName id) := by
    change created.request.map _ = _
    rw [hrequest]
    rfl
  rw [View.cookie?, hview, Option.bind_some, Request.cookie?, Request.patchCookie,
    NameMap.get?_insert, if_pos rfl]
  rfl

/-! ## The parts of the middleware -/

/-- **Starting a session** creates one, adds its cookie, and puts its id into the request. -/
theorem exec_startSession {e created : Exchange ν} {id : String}
    (hcreate : exec c.storage.create.run e = (some (some id), created)) :
    exec c.startSession.run e = (some (some ()), c.start created id) := by
  change exec (Action.bind c.storage.create _).run e = _
  rw [exec_run_bind, hcreate]
  rfl

/-- The request does not go on, and neither sessions nor cookies nor the request have changed. -/
def TurnsAway (e : Exchange ν) (outcome : Option (Option (Except SendError Bool)) × Exchange ν) :
    Prop :=
  outcome.1 ≠ some (some (.ok true)) ∧ outcome.2.sessions = e.sessions ∧
    outcome.2.response.header.cookies = e.response.header.cookies ∧ outcome.2.request = e.request

/-- Refusing a request starts nothing. -/
theorem turnsAway_refuse (code : Nat) (e : Exchange ν) :
    TurnsAway e (exec (refuse code : Answering ν Bool).run.run e) := by
  rw [refuse, exec_run_ebind, exec_run_look]
  dsimp only
  split
  · rw [exec_run_ebind, exec_run_change]
    dsimp only
    rw [exec_run_ebind, exec_run_respond]
    have hsends := moves_respond .finish (e.changeHeader (HeaderChange.setCode code).apply)
    have hcookies : (exec (Serving.respond .finish).run
        (e.changeHeader (HeaderChange.setCode code).apply)).2.response.header.cookies =
          e.response.header.cookies := cookies_finish _
    generalize exec (Serving.respond .finish).run _ = outcome at hsends hcookies
    obtain ⟨_ | _ | _, later⟩ := outcome
    · exact ⟨nofun, hsends.sessions, hcookies, hsends.request⟩
    · exact ⟨nofun, hsends.sessions, hcookies, hsends.request⟩
    · exact ⟨nofun, hsends.sessions, hcookies, hsends.request⟩
  · exact ⟨nofun, rfl, rfl, rfl⟩

/-- The verdict counts only as long as the response is not over. -/
theorem exec_authenticate (e : Exchange ν) :
    exec c.authenticate.run.run e = match exec c.judge.run.run e with
      | (some (some (.ok verdict)), judged) =>
        if judged.handle.conclusion.hasConcluded then (some (some (.ok false)), judged)
        else exec (c.enforce verdict).run.run judged
      | (some (some (.error failure)), judged) => (some (some (.error failure)), judged)
      | (some none, judged) => (some none, judged)
      | (none, judged) => (none, judged) := by
  rw [authenticate, judge, exec_run_ebind, exec_run_ebind]
  rcases exec (liftM c.conditioner : Answering ν Unit).run.run e with ⟨_ | _ | _ | _, conditioned⟩
  · rfl
  · rfl
  · rfl
  · dsimp only
    rw [exec_run_ebind]
    rcases exec c.authorizer.authorize.run.run conditioned with ⟨_ | _ | _ | verdict, judged⟩
    · rfl
    · rfl
    · rfl
    · dsimp only
      rw [exec_run_ebind, exec_run_look]
      dsimp only
      have hview : judged.view.handle = judged.handle := rfl
      rw [hview]
      split
      · rfl
      · rfl

/-- The check of the path, as the middleware makes it. -/
theorem covers_iff (v : View) :
    c.Covers v ↔ ¬ c.authenticationPath.any (· != v.path) = true := by
  rw [Covers]
  cases c.authenticationPath with
  | none => simp
  | some path => simp

/-- What the middleware does once the storage has told of the request's session. -/
theorem exec_permits {e found : Exchange ν} {state : SessionState}
    (hstate : exec (c.storage.state (e.view.cookie? c.cookieName)).run e =
      (some (some state), found)) :
    exec c.permits.run.run e =
      if state = .live ∨ c.Exempts e.view then (some (some (.ok true)), found)
      else if c.Covers e.view then exec c.authenticate.run.run found
      else exec (refuse 401 : Answering ν Bool).run.run found := by
  have hlifted : exec (liftM (c.storage.state (e.view.cookie? c.cookieName)) :
      Answering ν SessionState).run.run e = (some (some (.ok state)), found) :=
    (exec_run_lift (c.storage.state _) e).trans (by rw [hstate]; rfl)
  rw [permits, exec_run_ebind, exec_run_look]
  dsimp only
  rw [exec_run_ebind, hlifted]
  dsimp only
  by_cases hlive : state = .live
  · rw [if_pos hlive, if_pos (.inl hlive)]
    rfl
  rw [if_neg hlive]
  by_cases hexempt : c.allowsOptions = true ∧ e.view.method = "OPTIONS"
  · rw [if_pos hexempt, if_pos (.inr hexempt)]
    rfl
  have hasked : ¬ (state = .live ∨ c.Exempts e.view) := fun h => h.elim hlive hexempt
  rw [if_neg hexempt, if_neg hasked]
  by_cases hcovers : c.Covers e.view
  · rw [if_neg ((c.covers_iff _).1 hcovers), if_pos hcovers]
  · rw [if_pos (by simpa [covers_iff] using hcovers), if_neg hcovers]

/-- **What the middleware can do** with a request, of whose session the storage has told this. -/
inductive Decides (state : SessionState) (v : View) (found : Exchange ν) :
    Option (Option (Except SendError Bool)) × Exchange ν → Prop
  | passes (hfree : state = .live ∨ c.Exempts v) :
      Decides state v found (some (some (.ok true)), found)
  | admits {judged created : Exchange ν} {id : String} (hasked : ¬ (state = .live ∨ c.Exempts v))
      (hcovers : c.Covers v) (hjudges : c.Judges found .allowed judged)
      (hcreate : exec c.storage.create.run judged = (some (some id), created)) :
      Decides state v found (some (some (.ok true)), c.start created id)
  | stops {judged created : Exchange ν} {id : String}
      {outcome : Option (Option (Except SendError Bool)) × Exchange ν}
      (hasked : ¬ (state = .live ∨ c.Exempts v)) (hcovers : c.Covers v)
      (hjudges : c.Judges found .allowedButStop judged)
      (hcreate : exec c.storage.create.run judged = (some (some id), created))
      (hturns : TurnsAway (c.start created id) outcome) : Decides state v found outcome
  | refuses {outcome : Option (Option (Except SendError Bool)) × Exchange ν}
      (hasked : ¬ (state = .live ∨ c.Exempts v))
      (hnever : ∀ judged, ¬ c.Starts state v found judged)
      (hrefused : outcome.1 ≠ some (some (.ok true)))
      (hsessions : outcome.2.sessions = (c.handedBack state v found).sessions)
      (hcookies : outcome.2.response.header.cookies =
        (c.handedBack state v found).response.header.cookies) : Decides state v found outcome

/-- Who is not admitted and starts nothing is left as the code that was called has left it. -/
theorem decides_of_handedBack {state : SessionState} {v : View} {found handed : Exchange ν}
    {result : Option (Option (Except SendError Bool))} (hasked : ¬ (state = .live ∨ c.Exempts v))
    (hnever : ∀ judged, ¬ c.Starts state v found judged)
    (hhanded : c.handedBack state v found = handed) (hresult : result ≠ some (some (.ok true))) :
    c.Decides state v found (result, handed) :=
  .refuses hasked hnever hresult (by rw [hhanded]) (by rw [hhanded])

/-- What turns a request away from where the other code has left it refuses the request. -/
theorem decides_of_turnsAway {state : SessionState} {v : View} {found handed : Exchange ν}
    {outcome : Option (Option (Except SendError Bool)) × Exchange ν}
    (hasked : ¬ (state = .live ∨ c.Exempts v)) (hnever : ∀ judged, ¬ c.Starts state v found judged)
    (hhanded : c.handedBack state v found = handed) (hturns : TurnsAway handed outcome) :
    c.Decides state v found outcome := by
  obtain ⟨hrefused, hsessions, hcookies, _⟩ := hturns
  rw [← hhanded] at hsessions hcookies
  exact .refuses hasked hnever hrefused hsessions hcookies

/-- What the code that was called has left depends on the verdict alone. -/
theorem handedBack_of_judge {state : SessionState} {v : View} (found : Exchange ν)
    (hasked : ¬ (state = .live ∨ c.Exempts v)) (hcovers : c.Covers v) :
    c.handedBack state v found = match exec c.judge.run.run found with
      | (some (some (.ok .negotiate)), judged) =>
        if judged.handle.conclusion.hasConcluded then judged
        else (exec c.authorizer.negotiate.run.run judged).2
      | (_, judged) => judged := by
  rw [handedBack, if_neg]
  rintro (hlive | hexempt | huncovered)
  · exact hasked (.inl hlive)
  · exact hasked (.inr hexempt)
  · exact huncovered hcovers

/-- There is one verdict at most. -/
theorem Judges.verdict_eq {found judged other : Exchange ν} {verdict verdict' : Verdict}
    (first : c.Judges found verdict judged) (second : c.Judges found verdict' other) :
    verdict' = verdict ∧ other = judged := by
  have hsame := first.1.symm.trans second.1
  cases hsame
  exact ⟨rfl, rfl⟩

/-- **Enforcing a verdict** admits or refuses by it; the cases are those of the verdict. -/
theorem decides_enforce (hsound : c.storage.Sound) {state : SessionState} {v : View}
    {found judged : Exchange ν} {verdict : Verdict} (hasked : ¬ (state = .live ∨ c.Exempts v))
    (hcovers : c.Covers v) (hjudges : c.Judges found verdict judged) :
    c.Decides state v found (exec (c.enforce verdict).run.run judged) := by
  obtain ⟨id, created, hcreate, _⟩ := hsound.create judged
  have hstarted : exec (liftM c.startSession : Answering ν Unit).run.run judged =
      (some (some (.ok ())), c.start created id) :=
    (exec_run_lift c.startSession judged).trans (by rw [c.exec_startSession hcreate]; rfl)
  have hhanded := c.handedBack_of_judge found hasked hcovers
  rw [hjudges.1] at hhanded
  have hnever (hno : ¬ verdict.Allows) (other : Exchange ν) : ¬ c.Starts state v found other := by
    rintro ⟨_, _, _, verdict', hallows, hjudges'⟩
    rw [(hjudges.verdict_eq c hjudges').1] at hallows
    exact hno hallows
  cases verdict with
  | allowed =>
      rw [enforce, exec_run_ebind, hstarted]
      exact .admits hasked hcovers hjudges hcreate
  | allowedButStop =>
      rw [enforce, exec_run_ebind, hstarted]
      exact .stops hasked hcovers hjudges hcreate (turnsAway_refuse 204 _)
  | denied =>
      exact c.decides_of_turnsAway hasked (hnever nofun) hhanded (turnsAway_refuse 401 judged)
  | badRequest =>
      exact c.decides_of_turnsAway hasked (hnever nofun) hhanded (turnsAway_refuse 400 judged)
  | negotiate =>
      dsimp only at hhanded
      rw [if_neg (by simp [hjudges.2])] at hhanded
      rw [enforce, exec_run_ebind]
      have hnone := hnever nofun
      rcases hnegotiated : exec c.authorizer.negotiate.run.run judged with ⟨_ | _ | _ | _, later⟩
      · rw [hnegotiated] at hhanded
        exact c.decides_of_handedBack hasked hnone hhanded nofun
      · rw [hnegotiated] at hhanded
        exact c.decides_of_handedBack hasked hnone hhanded nofun
      · rw [hnegotiated] at hhanded
        exact c.decides_of_handedBack hasked hnone hhanded nofun
      · rw [hnegotiated] at hhanded
        exact c.decides_of_handedBack hasked hnone hhanded nofun

/-- Where the judges come to no verdict, or the response is over by then, the middleware hands on
what they have left. -/
theorem decides_of_not_judges {state : SessionState} {v : View} {found judged : Exchange ν}
    {result : Option (Option (Except SendError Bool))} (hasked : ¬ (state = .live ∨ c.Exempts v))
    (hnone : ∀ verdict other, ¬ c.Judges found verdict other)
    (hhanded : c.handedBack state v found = judged) (hresult : result ≠ some (some (.ok true))) :
    c.Decides state v found (result, judged) := by
  refine c.decides_of_handedBack hasked ?_ hhanded hresult
  rintro other ⟨_, _, _, verdict, _, hjudges⟩
  exact hnone verdict other hjudges

/-- **Authenticating a request** decides on it, whatever the conditioner and the authorizer do. -/
theorem decides_authenticate (hsound : c.storage.Sound) {state : SessionState} {v : View}
    {found : Exchange ν} (hasked : ¬ (state = .live ∨ c.Exempts v)) (hcovers : c.Covers v) :
    c.Decides state v found (exec c.authenticate.run.run found) := by
  have hhanded := c.handedBack_of_judge found hasked hcovers
  rw [exec_authenticate]
  rcases hjudged : exec c.judge.run.run found with ⟨_ | _ | failure | verdict, judged⟩
  · rw [hjudged] at hhanded
    refine c.decides_of_not_judges hasked (fun verdict other hjudges => ?_) hhanded nofun
    cases hjudged.symm.trans hjudges.1
  · rw [hjudged] at hhanded
    refine c.decides_of_not_judges hasked (fun verdict other hjudges => ?_) hhanded nofun
    cases hjudged.symm.trans hjudges.1
  · rw [hjudged] at hhanded
    refine c.decides_of_not_judges hasked (fun verdict other hjudges => ?_) hhanded nofun
    cases hjudged.symm.trans hjudges.1
  · by_cases hover : judged.handle.conclusion.hasConcluded = true
    · have hleft : c.handedBack state v found = judged := by
        rw [hhanded, hjudged]
        cases verdict with
        | negotiate => exact if_pos hover
        | _ => rfl
      dsimp only
      rw [if_pos hover]
      refine c.decides_of_not_judges hasked (fun other last hjudges => ?_) hleft nofun
      obtain ⟨hsame, hopen⟩ := hjudges
      cases hjudged.symm.trans hsame
      rw [hover] at hopen
      cases hopen
    · dsimp only
      rw [if_neg hover]
      exact c.decides_enforce hsound hasked hcovers ⟨hjudged, by simpa using hover⟩

/-- **The middleware does one of these things**, whatever the code does that it calls. -/
theorem decides_permits (hsound : c.storage.Sound) {e found : Exchange ν} {v : View}
    (hmethod : e.view.method = v.method) (hpath : e.view.path = v.path) {state : SessionState}
    (hstate : exec (c.storage.state (e.view.cookie? c.cookieName)).run e =
      (some (some state), found)) :
    c.Decides state v found (exec c.permits.run.run e) := by
  have hexempts : c.Exempts e.view ↔ c.Exempts v := by rw [Exempts, Exempts, hmethod]
  have hcovers : c.Covers e.view ↔ c.Covers v := by rw [Covers, Covers, hpath]
  rw [c.exec_permits hstate]
  by_cases hfree : state = .live ∨ c.Exempts v
  · rw [if_pos (hfree.imp_right hexempts.2)]
    exact .passes hfree
  rw [if_neg fun h => hfree (h.imp_right hexempts.1)]
  by_cases hcovered : c.Covers v
  · rw [if_pos (hcovers.2 hcovered)]
    exact c.decides_authenticate hsound hfree hcovered
  · rw [if_neg fun h => hcovered (hcovers.1 h)]
    refine c.decides_of_turnsAway hfree (fun _ hstarts => hcovered hstarts.2.2.1) ?_
      (turnsAway_refuse 401 found)
    rw [handedBack, if_pos (.inr (.inr hcovered))]

/-- The middleware starts a session where it should, with one cookie that carries its id. -/
theorem Decides.started {state : SessionState} {v : View} {found judged : Exchange ν}
    {outcome : Option (Option (Except SendError Bool)) × Exchange ν}
    (hdecides : c.Decides state v found outcome) (hsound : c.storage.Sound)
    (hrequest : found.request.isSome = true) (hstarts : c.Starts state v found judged) :
    ∃ id created cookie, exec c.storage.create.run judged = (some (some id), created) ∧
      outcome.2.sessions = created.sessions ∧
      outcome.2.response.header.cookies = judged.response.header.cookies ++ [cookie] ∧
      cookie.name = c.cookieName ∧ cookie.value = id ∧
      outcome.2.view.cookie? c.cookieName = some id := by
  -- Whoever is asked in between, there is a request as before.
  have hpresent {judged created : Exchange ν} {verdict : Verdict} {id : String}
      (hjudges : c.Judges found verdict judged)
      (hcreate : exec c.storage.create.run judged = (some (some id), created)) :
      created.request.isSome = true := by
    have hevolves := c.judge.run.evolves_run found
    rw [hjudges.1] at hevolves
    have hheader := congrArg Option.isSome hevolves.header
    rw [Option.isSome_map, Option.isSome_map] at hheader
    rw [(hsound.stores hcreate).request]
    exact hheader.trans hrequest
  have hcookies {judged created : Exchange ν} {id : String}
      (hcreate : exec c.storage.create.run judged = (some (some id), created)) :
      (c.start created id).response.header.cookies =
        judged.response.header.cookies ++ [c.cookie id] := by
    rw [← (hsound.stores hcreate).response]
    rfl
  obtain ⟨hstate, hexempt, hcovers, verdict, hallows, hjudges⟩ := hstarts
  cases hdecides with
  | passes hfree => exact absurd hfree (not_or.2 ⟨hstate, hexempt⟩)
  | refuses _ hnever =>
      exact absurd ⟨hstate, hexempt, hcovers, verdict, hallows, hjudges⟩ (hnever judged)
  | admits _ _ hadmits hcreate =>
      obtain ⟨-, rfl⟩ := hadmits.verdict_eq c hjudges
      exact ⟨_, _, c.cookie _, hcreate, rfl, hcookies hcreate, rfl, rfl,
        c.cookie?_start (hpresent hadmits hcreate) _⟩
  | stops _ _ hstops hcreate hturns =>
      obtain ⟨-, rfl⟩ := hstops.verdict_eq c hjudges
      obtain ⟨_, hsessions, hadded, hsame⟩ := hturns
      refine ⟨_, _, c.cookie _, hcreate, hsessions, hadded.trans (hcookies hcreate), rfl, rfl, ?_⟩
      rw [Exchange.cookie?_view, hsame, ← Exchange.cookie?_view]
      exact c.cookie?_start (hpresent hstops hcreate) _

/-- A request goes on exactly if it needs no session, has one, or was allowed to start one. -/
theorem Decides.permitted_iff {state : SessionState} {v : View} {found : Exchange ν}
    {outcome : Option (Option (Except SendError Bool)) × Exchange ν}
    (hdecides : c.Decides state v found outcome) :
    outcome.1 = some (some (.ok true)) ↔ state = .live ∨ c.Exempts v ∨
      c.Covers v ∧ ∃ judged, c.Judges found .allowed judged := by
  cases hdecides with
  | passes hfree => exact ⟨fun _ => hfree.imp_right .inl, fun _ => rfl⟩
  | admits _ hcovers hjudges => exact ⟨fun _ => .inr (.inr ⟨hcovers, _, hjudges⟩), fun _ => rfl⟩
  | stops hasked _ hjudges _ hturns =>
      refine ⟨fun hok => absurd hok hturns.1, fun hallowed => ?_⟩
      rcases hallowed with hlive | hexempt | ⟨_, judged, hother⟩
      · exact absurd (.inl hlive) hasked
      · exact absurd (.inr hexempt) hasked
      · cases (hjudges.verdict_eq c hother).1
  | refuses hasked hnever hrefused =>
      refine ⟨fun hok => absurd hok hrefused, fun hallowed => ?_⟩
      rcases hallowed with hlive | hexempt | ⟨hcovers, judged, hjudges⟩
      · exact absurd (.inl hlive) hasked
      · exact absurd (.inr hexempt) hasked
      · rw [not_or] at hasked
        exact absurd ⟨hasked.1, hasked.2, hcovers, .allowed, trivial, hjudges⟩ (hnever judged)

/-- Where no session is started, sessions and cookies are as they were handed back. -/
theorem Decides.not_started {state : SessionState} {v : View} {found : Exchange ν}
    {outcome : Option (Option (Except SendError Bool)) × Exchange ν}
    (hdecides : c.Decides state v found outcome)
    (hnever : ∀ judged, ¬ c.Starts state v found judged) :
    outcome.2.sessions = (c.handedBack state v found).sessions ∧
      outcome.2.response.header.cookies =
        (c.handedBack state v found).response.header.cookies := by
  cases hdecides with
  | passes hfree =>
      have hhanded : c.handedBack state v found = found :=
        if_pos (hfree.imp_right .inl)
      rw [hhanded]
      exact ⟨rfl, rfl⟩
  | admits hasked hcovers hjudges =>
      rw [not_or] at hasked
      exact absurd ⟨hasked.1, hasked.2, hcovers, .allowed, trivial, hjudges⟩ (hnever _)
  | stops hasked hcovers hjudges =>
      rw [not_or] at hasked
      exact absurd ⟨hasked.1, hasked.2, hcovers, .allowedButStop, trivial, hjudges⟩ (hnever _)
  | refuses _ _ _ hsessions hcookies => exact ⟨hsessions, hcookies⟩

end SessionControl

namespace Server

variable {ν : Type}

/-- The exchange once the route of its request is found. -/
def routed (e : Exchange ν) (route : Route (Handler ν)) : Exchange ν :=
  e.changeRequest fun request => { request with parameters := route.pattern.captures e.view.path }

/-- Parameters change nothing that the middleware looks at. -/
theorem view_routed (e : Exchange ν) (route : Route (Handler ν)) :
    (routed e route).view.method = e.view.method ∧ (routed e route).view.path = e.view.path ∧
      (routed e route).view.cookie? = e.view.cookie? := by
  unfold routed Exchange.changeRequest View.method View.path View.cookie? Exchange.view
  cases e.request with
  | none => exact ⟨rfl, rfl, rfl⟩
  | some request => exact ⟨rfl, rfl, rfl⟩

/-- A failure of the middleware is reported and refuses the request. -/
theorem exec_permits {s : Server ν} {e : Exchange ν} :
    exec s.permits.run e = match exec s.guard.run.run e with
      | (some (some (.ok permitted)), later) => (some (some permitted), later)
      | (some (some (.error failure)), later) =>
        ((exec (s.reportSend failure).run later).1.map (Option.map fun _ => false),
          (exec (s.reportSend failure).run later).2)
      | (some none, later) => (some none, later)
      | (none, later) => (none, later) := by
  change exec (Action.bind s.guard.run _).run e = _
  rw [exec_run_bind]
  rcases exec s.guard.run.run e with ⟨_ | _ | failure | permitted, later⟩
  · rfl
  · rfl
  · change exec (Action.bind (s.reportSend failure) _).run later = _
    rw [exec_run_bind]
    dsimp only
    rcases exec (s.reportSend failure).run later with ⟨_ | _ | _, last⟩ <;> rfl
  · rfl

/-- The handler of a route runs exactly if the guard has admitted the request. -/
theorem exec_dispatch {s : Server ν} {e : Exchange ν} {route : Route (Handler ν)}
    (hroute : s.router.find? e.view.method e.view.path = some route) :
    exec s.dispatch.run e = match exec s.guard.run.run (routed e route) with
      | (some (some (.ok true)), admitted) => exec (s.invoke route.handler).run admitted
      | (some (some (.ok false)), later) => (some (some ()), later)
      | (some (some (.error failure)), later) => exec (s.reportSend failure).run later
      | (some none, later) => (some none, later)
      | (none, later) => (none, later) := by
  have hdispatch : exec s.dispatch.run e = exec (Action.bind s.permits fun permitted =>
      if permitted then s.invoke route.handler else pure ()).run (routed e route) := by
    change exec (Action.bind (look : Action ν View) _).run e = _
    have hlook : exec (look : Action ν View).run e = (some (some e.view), e) :=
      exec_run_ofOperation .look e
    rw [exec_run_bind, hlook]
    dsimp only
    rw [hroute]
    change exec (Action.bind (setParameters _ : Action ν Unit) _).run e = _
    have hparameters (parameters : NameMap) :
        exec (setParameters parameters : Action ν Unit).run e =
        (some (some ()), e.changeRequest fun request => { request with parameters }) :=
      exec_run_ofOperation (.setParameters parameters) e
    rw [exec_run_bind, hparameters]
    rfl
  rw [hdispatch, exec_run_bind, exec_permits]
  rcases exec s.guard.run.run (routed e route) with ⟨_ | _ | failure | _ | _, later⟩
  · rfl
  · rfl
  · dsimp only
    rcases exec (s.reportSend failure).run later with ⟨_ | _ | _, last⟩ <;> rfl
  · rfl
  · rfl

/-- **Nobody is admitted who should not be.** With the session middleware as the guard of a server,
whatever its storage holds and whatever its conditioner and its authorizer do, a request that agrees
with a route is passed to the handler exactly if the storage tells of a live session, or the method
needs none, or the path is one on which sessions are started and the authorizer has allowed the
request before its response was over. Where the authorizer has allowed a session, to go on or not,
exactly one is created, one cookie with its id is added to the response, and the request carries it
from then on. In all other cases no session is created and no cookie added by the middleware
itself. -/
theorem admission {s : Server ν} {c : SessionControl ν} (hguard : s.guard = c.permits)
    (hsound : c.storage.Sound) {e : Exchange ν} (hrequest : e.request.isSome = true)
    {route : Route (Handler ν)} (hroute : s.router.find? e.view.method e.view.path = some route) :
    ∃ state found,
      exec (c.storage.state (e.view.cookie? c.cookieName)).run (routed e route) =
        (some (some state), found) ∧
      let outcome := exec c.permits.run.run (routed e route)
      (exec s.dispatch.run e = match outcome with
        | (some (some (.ok true)), admitted) => exec (s.invoke route.handler).run admitted
        | (some (some (.ok false)), later) => (some (some ()), later)
        | (some (some (.error failure)), later) => exec (s.reportSend failure).run later
        | (some none, later) => (some none, later)
        | (none, later) => (none, later)) ∧
      (outcome.1 = some (some (.ok true)) ↔ state = .live ∨ c.Exempts e.view ∨
        c.Covers e.view ∧ ∃ judged, c.Judges found .allowed judged) ∧
      (∀ judged, c.Starts state e.view found judged →
        ∃ id created cookie, exec c.storage.create.run judged = (some (some id), created) ∧
          outcome.2.sessions = created.sessions ∧
          outcome.2.response.header.cookies = judged.response.header.cookies ++ [cookie] ∧
          cookie.name = c.cookieName ∧ cookie.value = id ∧
          outcome.2.view.cookie? c.cookieName = some id) ∧
      ((∀ judged, ¬ c.Starts state e.view found judged) →
        outcome.2.sessions = (c.handedBack state e.view found).sessions ∧
          outcome.2.response.header.cookies =
            (c.handedBack state e.view found).response.header.cookies) := by
  obtain ⟨state, found, hstate, hstores⟩ :=
    hsound.state (e.view.cookie? c.cookieName) (routed e route)
  have hpresent : found.request.isSome = true := by
    rw [hstores.request, routed, Exchange.changeRequest, Option.isSome_map]
    exact hrequest
  have hdecides : c.Decides state e.view found (exec c.permits.run.run (routed e route)) := by
    refine c.decides_permits hsound (view_routed e route).1 (view_routed e route).2.1 ?_
    rw [(view_routed e route).2.2]
    exact hstate
  refine ⟨state, found, hstate, ?_, hdecides.permitted_iff, fun judged hstarts => ?_,
    hdecides.not_started⟩
  · rw [← hguard]
    exact exec_dispatch hroute
  · exact hdecides.started c hsound hpresent hstarts

/-- The middleware with an authorizer that allows everything. -/
def openControl : SessionControl Unit where
  storage := .pool
  authorizer := { negotiate := pure (), authorize := pure .allowed }

def openRoute : Route (Handler Unit) where
  method := "GET"
  template := "/"
  pattern := .below "/"
  priority := 0
  handler := (pure () : Handling Unit Unit)

def openServer : Server Unit where
  router := ⟨[openRoute]⟩
  guard := openControl.permits

/-- A request without a cookie. -/
def firstRequest : Exchange Unit :=
  { Exchange.accept { sessions := { mint := fun _ => "first" } } {} none {} {} [] with
    request := some { header := RequestHeader.ofSection { method := "GET", target := "/" } } }

/-- The first request starts a session, and its handler finds the id in the request. -/
theorem admission_firstRequest :
    openServer.guard = openControl.permits ∧ openControl.storage.Sound ∧
      firstRequest.request.isSome = true ∧
      openServer.router.find? firstRequest.view.method firstRequest.view.path = some openRoute ∧
      ∃ admitted, exec openServer.dispatch.run firstRequest =
          exec (openServer.invoke openRoute.handler).run admitted ∧
        admitted.sessions.minted = 1 ∧ admitted.view.cookie? "session" = some "first" := by
  have hroute : openServer.router.find? firstRequest.view.method firstRequest.view.path =
      some openRoute := by
    have hfull : openRoute.level firstRequest.view.method firstRequest.view.path = .full := by
      decide +kernel
    rw [Router.find?]
    exact List.find?_cons_of_pos (by rw [hfull]; rfl)
  refine ⟨rfl, SessionStorage.sound_pool, rfl, hroute, ?_⟩
  obtain ⟨state, found, hstate, hdispatch, hpermitted, hstarted, _⟩ :=
    admission (s := openServer) (c := openControl) rfl SessionStorage.sound_pool rfl hroute
  have hcookie : firstRequest.view.cookie? openControl.cookieName = none := by decide +kernel
  rw [hcookie] at hstate
  cases hstate
  have hjudges : openControl.Judges (routed firstRequest openRoute) .allowed
      (routed firstRequest openRoute) := ⟨rfl, by decide +kernel⟩
  obtain ⟨id, created, cookie, hcreate, hsessions, _, _, _, hfound⟩ :=
    hstarted _ ⟨nofun, by decide +kernel, rfl, .allowed, trivial, hjudges⟩
  have hallowed := hpermitted.2 (.inr (.inr ⟨rfl, _, hjudges⟩))
  cases hcreate
  generalize exec openControl.permits.run.run (routed firstRequest openRoute) = outcome at *
  obtain ⟨result, admitted⟩ := outcome
  dsimp only at hallowed hsessions hfound
  rw [hallowed] at hdispatch
  exact ⟨admitted, hdispatch, by rw [hsessions]; rfl, hfound⟩

end Server

end HttpServer
