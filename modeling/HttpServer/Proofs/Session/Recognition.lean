import HttpServer.Proofs.Request.Pieces
import HttpServer.Proofs.Response.HeaderLines
import HttpServer.Proofs.Session.Admission
import HttpServer.Proofs.Session.Lifecycle
import HttpServer.Proofs.Session.ReturnedCookie

/-!
# Sessions that are recognised

A session that the middleware has started is recognised in the next request of the client if its id
can be carried by a cookie: what is read of the cookie that was written for it is the id exactly if
this has no semicolon and no blanks around (`SessionControl.recognises_started`). Then the request
passes without any more being asked, as long as the storage tells that the session is live
(`SessionControl.permits_of_live`). The storage of the server tells so until the session was
deleted, cleared away or has expired (`SessionStorage.exists_live_pool`).

A storage may make up any ids, so there are sessions that nobody finds again: the client brings back
what stood in front of the semicolon, and another session is started
(`Server.unrecognised_semicolon`).
-/

namespace HttpServer

open Serving HttpServer.Action HeaderText ResponseHeader

/-- The request of the exchange is the one that was read, without any cookies of our own. -/
def Exchange.IsFor {ν : Type} (e : Exchange ν) (reader : HeaderReader) : Prop :=
  ∃ parameters leftover, e.request =
    some { header := RequestHeader.ofSection reader.header, parameters, leftover }

section

variable {ν : Type}

theorem Exchange.isFor_bind (e : Exchange ν) (reader : HeaderReader) :
    (e.bind reader).IsFor reader :=
  ⟨.empty, reader.buffer, rfl⟩

theorem Server.isFor_routed {e : Exchange ν} {reader : HeaderReader} (h : e.IsFor reader)
    (route : Route (Handler ν)) : (routed e route).IsFor reader := by
  obtain ⟨_, leftover, hrequest⟩ := h
  refine ⟨route.pattern.captures e.view.path, leftover, ?_⟩
  rw [routed, Exchange.changeRequest, hrequest]
  rfl

theorem Exchange.IsFor.cookie? {e : Exchange ν} {reader : HeaderReader} (h : e.IsFor reader)
    (name : String) : e.view.cookie? name = reader.header.cookies.get? name := by
  obtain ⟨_, _, hrequest⟩ := h
  rw [Exchange.cookie?_view, hrequest]
  rfl

/-- A line of a header that was written is on the wire. -/
theorem ResponseHeader.exists_line_of_writeTo {h : ResponseHeader} {buffer wire : Bytes}
    (hwrite : h.writeTo buffer = (wire, .ok ())) {line : String × String} (hline : line ∈ h.lines) :
    ∃ before after, wire =
      before ++ (Utf8.ofString (line.1 ++ ": " ++ line.2) ++ lineEnd) ++ after := by
  unfold writeTo at hwrite
  split at hwrite
  · cases hwrite
  · cases hwrite
    obtain ⟨front, back, hlines⟩ := List.append_of_mem hline
    refine ⟨buffer ++ (Utf8.ofString h.statusLine ++ lineEnd ++
      front.flatMap fun line => Utf8.ofString (line.1 ++ ": " ++ line.2) ++ lineEnd),
      (back.flatMap fun line => Utf8.ofString (line.1 ++ ": " ++ line.2) ++ lineEnd) ++ lineEnd, ?_⟩
    rw [toBytes, hlines, List.flatMap_append, List.flatMap_cons]
    simp only [List.append_assoc]

/-- **A request brings back a text**: it is read without an error, in whatever pieces it comes, and
the value of its only line of cookies brings back the text under the name. -/
def BringsBack (limits : HeaderLimits) (pieces : List Bytes) (sent : List Char) (name : String)
    (reader : HeaderReader) : Prop :=
  ({ limits } : HeaderReader).feedAll pieces = (reader, .ok .finished) ∧
    ∃ (t : HeaderText) (line : Bytes), t.Accepted limits ∧ t.bytes = pieces.flatten ∧
      t.lines.filter isCookieLine = [line] ∧ HandsBack (fieldOf line).2 sent name

/-- What is read of a cookie that is brought back. -/
theorem cookies_of_bringsBack {limits : HeaderLimits} {pieces : List Bytes} {reader : HeaderReader}
    {cookie : Cookie} (hname : IsCookieName cookie.name)
    (hbrings : BringsBack limits pieces (cookie.render.toList.takeWhile (· ≠ ';')) cookie.name
      reader) : reader.header.cookies.get? cookie.name = some (returnedValue cookie.value) := by
  obtain ⟨hfeed, t, line, haccepted, hbytes, honly, hhanded⟩ := hbrings
  obtain ⟨final, hrun, hsaid⟩ := HeaderReader.run_of_text haccepted
  have hread : ({ limits, buffer := t.bytes } : HeaderReader).run = (reader, .ok .finished) := by
    have hwhole := HeaderReader.run_of_feedAll (HeaderReader.isWaiting_new limits) hfeed
    rw [hbytes]
    exact hwhole
  cases hrun.symm.trans hread
  exact hsaid.cookie_of_handsBack honly hname hhanded

end

/-! ## The storage of the server -/

/-- The session that the storage of the server was told of in a history of calls is live until it is
deleted, cleared away or expires, and telling so creates no session. -/
theorem SessionStorage.exists_live_pool {ν : Type} {e : Exchange ν} {timeout : Option Nat}
    {calls : List (StoreCall BasicSession)} {id : String}
    (hstore : e.sessions.store = SessionStore.after timeout calls)
    (hfresh : (SessionStore.created calls).Nodup) (hremains : SessionStore.Remains timeout calls id)
    (htime : SessionStore.InTime timeout (SessionStore.history timeout calls) id e.sessions.clock) :
    ∃ known, exec ((SessionStorage.pool (ν := ν)).state (some id)).run e =
      (some (some .live), known) ∧ known.sessions.minted = e.sessions.minted := by
  let told := e.sessions.store.state (some id) e.sessions.clock
  have hrun : exec ((SessionStorage.pool (ν := ν)).state (some id)).run e = (some (some told.2),
      { e with sessions := { e.sessions with store := told.1 } }) :=
    exec_run_ofOperation (.session (.state (some id))) e
  have hanswer :=
    ((SessionStore.tracks_after hfresh).live_iff id e.sessions.clock).2 ⟨hremains, htime⟩
  rw [← hstore] at hanswer
  have hlive : told.2 = .live := StoreReply.state.inj hanswer
  rw [hlive] at hrun
  exact ⟨_, hrun, rfl⟩

namespace SessionControl

variable {ν : Type} (c : SessionControl ν)

/-- A request with a live session passes as the storage has left it, and nobody else is asked. -/
theorem permits_of_live {e known : Exchange ν} {id : String}
    (hcookie : e.view.cookie? c.cookieName = some id)
    (hlive : exec (c.storage.state (some id)).run e = (some (some .live), known)) :
    exec c.permits.run.run e = (some (some (.ok true)), known) := by
  rw [← hcookie] at hlive
  rw [c.exec_permits hlive, if_pos (.inl rfl)]

/-- **A request is recognised** as one of a session: it has the id, and if the storage tells that
the session is live it passes, and nothing happens but what the storage itself does. The storage of
the server tells so as long as the session was not deleted or cleared away and has not expired, and
creates no other. -/
structure Recognises (id : String) (e : Exchange ν) : Prop where
  cookie : e.view.cookie? c.cookieName = some id
  passes : ∀ known, exec (c.storage.state (some id)).run e = (some (some .live), known) →
    exec c.permits.run.run e = (some (some (.ok true)), known) ∧ e.Stores known
  pooled : c.storage = .pool → ∀ timeout calls,
    e.sessions.store = SessionStore.after timeout calls → (SessionStore.created calls).Nodup →
    SessionStore.Remains timeout calls id →
    SessionStore.InTime timeout (SessionStore.history timeout calls) id e.sessions.clock →
    ∃ known, exec c.permits.run.run e = (some (some (.ok true)), known) ∧ e.Stores known ∧
      known.sessions.minted = e.sessions.minted

theorem recognises_of_cookie (hsound : c.storage.Sound) {id : String} {e : Exchange ν}
    (hcookie : e.view.cookie? c.cookieName = some id) : c.Recognises id e := by
  have hpasses (known : Exchange ν)
      (hlive : exec (c.storage.state (some id)).run e = (some (some .live), known)) :
      exec c.permits.run.run e = (some (some (.ok true)), known) ∧ e.Stores known := by
    obtain ⟨_, _, hstate, hstores⟩ := hsound.state (some id) e
    cases hlive.symm.trans hstate
    exact ⟨c.permits_of_live hcookie hlive, hstores⟩
  refine ⟨hcookie, hpasses, fun hpool timeout calls hstore hfresh hremains htime => ?_⟩
  obtain ⟨known, hlive, hminted⟩ := SessionStorage.exists_live_pool hstore hfresh hremains htime
  rw [← hpool] at hlive
  obtain ⟨hpermitted, hstores⟩ := hpasses known hlive
  exact ⟨known, hpermitted, hstores, hminted⟩

/-- What comes of a request for which a session is started. -/
theorem exists_cookie_of_starts (hsound : c.storage.Sound) {e found judged : Exchange ν}
    {state : SessionState} (hrequest : e.request.isSome = true)
    (hstate : exec (c.storage.state (e.view.cookie? c.cookieName)).run e =
      (some (some state), found))
    (hstarts : c.Starts state e.view found judged) :
    ∃ id created cookie, exec c.storage.create.run judged = (some (some id), created) ∧
      (exec c.permits.run.run e).2.response.header.cookies =
        judged.response.header.cookies ++ [cookie] ∧
      cookie.name = c.cookieName ∧ cookie.value = id := by
  obtain ⟨_, _, htold, hstores⟩ := hsound.state (e.view.cookie? c.cookieName) e
  cases hstate.symm.trans htold
  have hpresent : found.request.isSome = true := by rwa [hstores.request]
  have hdecides : c.Decides state e.view found (exec c.permits.run.run e) :=
    c.decides_permits hsound rfl rfl hstate
  obtain ⟨id, created, cookie, hcreate, -, hadded, hname, hvalue, -⟩ :=
    hdecides.started c hsound hpresent hstarts
  exact ⟨id, created, cookie, hcreate, hadded, hname, hvalue⟩

/-- **A session that was started is recognised if its id comes back.** Where the authorizer has
allowed a request, one session is created and one cookie added for it. Whatever else becomes of the
header, when it is written the cookie is on the wire. Every later request that is read without an
error and whose only line of cookies brings back what stood in front of the first semicolon is read,
by the parser and by all who handle it, as one with the id of the session exactly if the id is a
text without semicolons and without blanks around, as all are that are generated for sessions. Such
a request passes while the session is live. -/
theorem recognises_started (hsound : c.storage.Sound) (hname : IsCookieName c.cookieName)
    {e found judged : Exchange ν} {state : SessionState} (hrequest : e.request.isSome = true)
    (hstate : exec (c.storage.state (e.view.cookie? c.cookieName)).run e =
      (some (some state), found))
    (hstarts : c.Starts state e.view found judged) :
    ∃ id created cookie, exec c.storage.create.run judged = (some (some id), created) ∧
      (exec c.permits.run.run e).2.response.header.cookies =
        judged.response.header.cookies ++ [cookie] ∧
      ∀ (h : ResponseHeader) (buffer wire : Bytes), cookie ∈ h.cookies →
        h.writeTo buffer = (wire, .ok ()) →
        (∃ before after, wire = before ++
          (Utf8.ofString (cookieField ++ ": " ++ cookie.render) ++ lineEnd) ++ after) ∧
        ∀ (limits : HeaderLimits) (pieces : List Bytes) (reader : HeaderReader),
          BringsBack limits pieces (cookie.render.toList.takeWhile (· ≠ ';')) c.cookieName reader →
          (reader.header.cookies.get? c.cookieName = some id ↔ IsCookieValue id) ∧
          ∀ later : Exchange ν, later.IsFor reader →
            (later.view.cookie? c.cookieName = some id ↔ IsCookieValue id) ∧
            (IsCookieValue id → c.Recognises id later) := by
  obtain ⟨id, created, cookie, hcreate, hadded, hcookieName, hcookieValue⟩ :=
    c.exists_cookie_of_starts hsound hrequest hstate hstarts
  refine ⟨id, created, cookie, hcreate, hadded, fun h buffer wire hcookie hwrite => ?_⟩
  have hline : (cookieField, cookie.render) ∈ h.lines :=
    List.mem_append_right _ (List.mem_map.2 ⟨cookie, hcookie, rfl⟩)
  have hsent := exists_line_of_writeTo hwrite hline
  refine ⟨hsent, fun limits pieces reader hbrings => ?_⟩
  have hread : reader.header.cookies.get? c.cookieName = some (returnedValue id) := by
    rw [← hcookieName, ← hcookieValue]
    exact cookies_of_bringsBack (hcookieName ▸ hname) (hcookieName ▸ hbrings)
  have hiff : reader.header.cookies.get? c.cookieName = some id ↔ IsCookieValue id := by
    rw [hread, Option.some.injEq]
    exact returnedValue_eq_self_iff
  refine ⟨hiff, fun later hlater => ?_⟩
  have hseen := hlater.cookie? c.cookieName
  refine ⟨by rw [hseen, hiff], fun hvalue => ?_⟩
  exact c.recognises_of_cookie hsound (hseen.trans (hiff.2 hvalue))

end SessionControl

namespace Server

/-- A request for the root brings back what its only line of cookies hands back. -/
theorem bringsBack_rootRequest {line : Bytes} {sent : List Char} {name : String}
    (hline : IsFieldLine line) (hcookies : isCookieLine line = true)
    (hfits : (HeaderReader.rootRequest [line]).bytes.length ≤ ({} : HeaderLimits).maxBytes)
    (hhanded : HandsBack (fieldOf line).2 sent name) :
    ∃ reader, BringsBack {} [(HeaderReader.rootRequest [line]).bytes] sent name reader := by
  have haccepted : (HeaderReader.rootRequest [line]).Accepted {} :=
    HeaderReader.accepted_rootRequest (fun other hother => List.mem_singleton.1 hother ▸ hline)
      (Nat.le_of_ble_eq_true rfl)
  obtain ⟨reader, hfeed, -⟩ := HeaderReader.feed_of_text haccepted hfits
  refine ⟨reader, ?_, HeaderReader.rootRequest [line], line, haccepted, ?_, ?_, hhanded⟩
  · rw [HeaderReader.feedAll, hfeed]
  · rw [List.flatten_singleton]
  · exact List.filter_cons_of_pos hcookies

/-- A line that brings back the cookie of the first session among two other ones. -/
def returningLine : Bytes := Utf8.ofString "cookie:a=1 ;  session=first ;b\r"

/-- An exchange after the first session was created. -/
def secondExchange : Exchange Unit :=
  { firstRequest with sessions := {
      store := SessionStore.after none [.create "first" { id := "first" } 0 0]
      mint := fun _ => "first"
      minted := 1 } }

theorem bringsBack_returningLine : ∃ reader, BringsBack {}
    [Utf8.ofString "GET / HTTP/1.1\r\ncookie:a=1 ;  session=first ;b\r\n\r\n"]
    ((openControl.cookie "first").render.toList.takeWhile (· ≠ ';')) "session" reader := by
  have hbytes : (HeaderReader.rootRequest [returningLine]).bytes = Utf8.ofString
      "GET / HTTP/1.1\r\ncookie:a=1 ;  session=first ;b\r\n\r\n" := by
    decide +kernel
  have hvalue : (fieldOf returningLine).2 = "a=1 ;  session=first ;b" := by decide +kernel
  have hsent : (openControl.cookie "first").render.toList.takeWhile (· ≠ ';') =
      "session=first".toList := by
    decide +kernel
  have hhanded : HandsBack "a=1 ;  session=first ;b" "session=first".toList "session" := by
    have hblanks {cs : List Char} (h : cs.all isBlank = true) : ∀ c ∈ cs, isBlank c = true :=
      List.all_eq_true.1 h
    refine ⟨["a=1 ".toList], "  ".toList, " ".toList, ["b".toList], by decide +kernel,
      hblanks (by decide +kernel), hblanks (by decide +kernel), fun other hother _ => ?_⟩
    rw [List.mem_singleton.1 hother]
    decide +kernel
  rw [← hvalue, ← hsent] at hhanded
  rw [← hbytes]
  refine bringsBack_rootRequest ?_ (by decide +kernel) (by decide +kernel) hhanded
  constructor <;> decide +kernel

/-- The first request starts a session, and the second one passes with it. -/
theorem recognises_started_firstRequest :
    ∃ (reader : HeaderReader) (known : Exchange Unit),
      ({} : HeaderReader).feedAll [Utf8.ofString
        "GET / HTTP/1.1\r\ncookie:a=1 ;  session=first ;b\r\n\r\n"] = (reader, .ok .finished) ∧
      reader.header.cookies.get? "session" = some "first" ∧
      exec openControl.permits.run.run (routed (secondExchange.bind reader) openRoute) =
        (some (some (.ok true)), known) ∧
      known.sessions.minted = 1 ∧ known.response.header.cookies = [] := by
  have hjudges : openControl.Judges firstRequest .allowed firstRequest := ⟨rfl, by decide +kernel⟩
  have hstarts : openControl.Starts .noSession firstRequest.view firstRequest firstRequest :=
    ⟨nofun, by decide +kernel, rfl, .allowed, trivial, hjudges⟩
  have hname : IsCookieName openControl.cookieName := by
    constructor <;> decide +kernel
  have hvalue : IsCookieValue "first" := isCookieValue_of_alphanum (by decide +kernel)
  obtain ⟨id, created, cookie, hcreate, hadded, hrecognised⟩ :=
    openControl.recognises_started SessionStorage.sound_pool hname (e := firstRequest) rfl rfl
      hstarts
  cases hcreate
  have hsent : (exec openControl.permits.run.run firstRequest).2.response.header.cookies =
      [openControl.cookie "first"] := by decide +kernel
  have hcookie : cookie = openControl.cookie "first" := by
    rw [hadded] at hsent
    exact List.head_eq_of_cons_eq hsent
  subst hcookie
  obtain ⟨reader, hbrings⟩ := bringsBack_returningLine
  obtain ⟨-, hread⟩ := hrecognised _ [] _ (by rw [hsent]; exact List.mem_singleton_self _)
    (writeTo_nil_of_fits (by decide +kernel))
  obtain ⟨hcookies, hknown⟩ := hread {} _ reader hbrings
  obtain ⟨known, hpasses, hstores, hminted⟩ :=
    ((hknown _ (isFor_routed (secondExchange.isFor_bind reader) openRoute)).2 hvalue).pooled rfl
      none _ rfl (by decide +kernel)
      ⟨[], _, _, _, [], rfl, fun first call rest hnone => by simp at hnone⟩
      ⟨0, by decide +kernel, nofun⟩
  refine ⟨reader, known, hbrings.1, hcookies.2 hvalue, hpasses, hminted, ?_⟩
  rw [hstores.response]
  rfl

/-- A storage that always tells of one session and whose id has a semicolon. -/
def oneSession : SessionStorage Unit where
  state
    | none => pure .noSession
    | some id => pure (if id = "user;42" then .live else .notFound)
  create := pure "user;42"
  get id := pure (if id = "user;42" then some { id } else none)

theorem sound_oneSession : oneSession.Sound where
  state
    | none, e => ⟨_, e, rfl, rfl⟩
    | some _, e => ⟨_, e, rfl, rfl⟩
  create e := ⟨_, e, rfl, rfl⟩

/-- The middleware with that storage and an authorizer that allows everything. -/
def carelessControl : SessionControl Unit := { openControl with storage := oneSession }

/-- Where no session is found, one is started. -/
theorem starts_carelessControl {e : Exchange Unit} {state : SessionState} (hstate : state ≠ .live)
    (hopen : e.handle.conclusion.hasConcluded = false) :
    carelessControl.Starts state e.view e e :=
  ⟨hstate, fun h => Bool.false_ne_true h.1, rfl, .allowed, trivial, rfl, hopen⟩

/-- **A session whose id has a semicolon is not recognised.** The cookie of the session `user;42` is
written, the next request brings back what stood in front of the semicolon, and `user` is read. The
storage does know the session, but another one is started, with another cookie. -/
theorem unrecognised_semicolon :
    IsCookieName carelessControl.cookieName ∧ carelessControl.storage.Sound ∧
      carelessControl.Starts .noSession firstRequest.view firstRequest firstRequest ∧
      exec carelessControl.storage.create.run firstRequest =
        (some (some "user;42"), firstRequest) ∧
      ∃ (cookie : Cookie) (wire : Bytes) (reader : HeaderReader),
        let started := (exec carelessControl.permits.run.run firstRequest).2.response.header
        started.cookies = [cookie] ∧ started.writeTo [] = (wire, .ok ()) ∧
        BringsBack {} [Utf8.ofString "GET / HTTP/1.1\r\ncookie: session=user\r\n\r\n"]
          (cookie.render.toList.takeWhile (· ≠ ';')) "session" reader ∧
        reader.header.cookies.get? "session" = some "user" ∧
        let later := firstRequest.bind reader
        later.view.cookie? "session" = some "user" ∧
        exec (carelessControl.storage.state (some "user;42")).run later =
          (some (some .live), later) ∧
        (exec carelessControl.permits.run.run later).2.response.header.cookies = [cookie] := by
  have hname : IsCookieName carelessControl.cookieName := by
    constructor <;> decide +kernel
  have hbytes : (HeaderReader.rootRequest [Utf8.ofString "cookie: session=user\r"]).bytes =
      Utf8.ofString "GET / HTTP/1.1\r\ncookie: session=user\r\n\r\n" := by
    decide +kernel
  have hvalue : (fieldOf (Utf8.ofString "cookie: session=user\r")).2 = "session=user" := by
    decide +kernel
  have hsent : (carelessControl.cookie "user;42").render.toList.takeWhile (· ≠ ';') =
      "session=user".toList := by
    decide +kernel
  obtain ⟨reader, hbrings⟩ : ∃ reader, BringsBack {}
      [Utf8.ofString "GET / HTTP/1.1\r\ncookie: session=user\r\n\r\n"]
      ((carelessControl.cookie "user;42").render.toList.takeWhile (· ≠ ';')) "session" reader := by
    rw [← hbytes]
    refine bringsBack_rootRequest ?_ (by decide +kernel) (by decide +kernel) ?_
    · constructor <;> decide +kernel
    · rw [hvalue, hsent]
      exact ⟨[], [], [], [], by decide +kernel, nofun, nofun, nofun⟩
  have hread : reader.header.cookies.get? "session" = some "user" :=
    @cookies_of_bringsBack _ _ _ (carelessControl.cookie "user;42") hname hbrings
  have hseen : (firstRequest.bind reader).view.cookie? "session" = some "user" :=
    ((firstRequest.isFor_bind reader).cookie? _).trans hread
  refine ⟨hname, sound_oneSession, starts_carelessControl nofun (by decide +kernel), rfl,
    carelessControl.cookie "user;42", _, reader, by decide +kernel,
    writeTo_nil_of_fits (by decide +kernel), hbrings, hread, hseen, rfl, ?_⟩
  have hlater : exec (carelessControl.storage.state
      ((firstRequest.bind reader).view.cookie? carelessControl.cookieName)).run
        (firstRequest.bind reader) = (some (some .notFound), firstRequest.bind reader) := by
    have hname : carelessControl.cookieName = "session" := rfl
    rw [hname, hseen]
    rfl
  have hasked : ¬ (SessionState.notFound = .live ∨
      carelessControl.Exempts (firstRequest.bind reader).view) :=
    fun h => h.elim nofun fun hexempts => Bool.false_ne_true hexempts.1
  have hcovers : carelessControl.Covers (firstRequest.bind reader).view := rfl
  rw [carelessControl.exec_permits hlater, if_neg hasked, if_pos hcovers]
  rfl

end Server

end HttpServer
