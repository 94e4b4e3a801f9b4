import HttpServer.Proofs.Exchange.Completing
import HttpServer.Proofs.Response.BodyFraming
import HttpServer.Proofs.Routing.Confinement

/-!
# Describing a file and sending it

A mount can send a file and describe one. Both answers are made of the same header, one out of what
opening the file finds and the other out of what looking it up finds (`Mount.getAnswer`,
`Mount.headAnswer`). They agree on status, length and media type for everything but two kinds of
files: a file that is empty is sent with a status of its own, and a file that cannot be opened can
be described all the same (`Mount.head_agrees_iff`). A description is sent without a body if there
is a file to describe. Otherwise the request is refused, with a body as for any other method.
-/

namespace HttpServer

open ResponseHeader

/-- What a request is answered with: a header, and the body behind it. -/
structure Answer where
  header : ResponseHeader
  body : Bytes

namespace Answer

variable {ν : Type}

/-- The answer on the wire. -/
def bytes (a : Answer) : Bytes := a.header.toBytes ++ a.body

/-- Two answers have the same status, and say the same of the length and the media type of a
body. -/
structure Agrees (a other : Answer) : Prop where
  code : a.header.code = other.header.code
  lengths : a.header.lengths = other.header.lengths
  mediaTypes : a.header.values "Content-Type" = other.header.values "Content-Type"

/-- **The answer that a handler gives** in an exchange. It puts a first part of it on the wire, all
of it if it succeeds, and it succeeds where nothing stands in the way. -/
structure GivenBy (a : Answer) (p : Handling ν Unit) (e : Exchange ν) : Prop where
  wire : ∃ sent, (Serving.exec p.run.run e).2.outgoing.written = e.outgoing.written ++ sent ∧
    sent <+: a.bytes ∧ ((Serving.exec p.run.run e).1 = some (some (.ok ())) → sent = a.bytes)
  succeeds : e.Writable → e.response.header.fault? = none →
    (Serving.exec p.run.run e).1 = some (some (.ok ()))

/-- Programs that run alike give the same answer. -/
theorem GivenBy.of_exec {a : Answer} {p q : Handling ν Unit} {e : Exchange ν} (h : a.GivenBy q e)
    (hsame : Serving.exec p.run.run e = Serving.exec q.run.run e) : a.GivenBy p e := by
  obtain ⟨hwire, hsucceeds⟩ := h
  rw [← hsame] at hwire hsucceeds
  exact ⟨hwire, hsucceeds⟩

/-- A change in front of an answer must leave a header that can be written. -/
theorem GivenBy.change_bind {a : Answer} {p : Handling ν Unit} {e : Exchange ν} {c : HeaderChange}
    (hfits : e.response.header.fault? = none → (c.apply e.response.header).fault? = none)
    (h : a.GivenBy p (e.changeHeader c.apply)) :
    a.GivenBy (do Action.change c; p) e := by
  have hexec : Serving.exec (do Action.change c; p : Handling ν Unit).run.run e =
      Serving.exec p.run.run (e.changeHeader c.apply) := by
    rw [Action.exec_run_ebind, Action.exec_run_change]
  obtain ⟨hwire, hsucceeds⟩ := h
  constructor
  · rw [hexec]
    exact hwire
  · intro hwritable hclean
    rw [hexec]
    exact hsucceeds (hwritable.changeHeader c.apply) (hfits hclean)

/-- A call that sends what is at hand gives the answer with its header and body. -/
theorem givenBy_send {call : ResponseCall} (hcall : call.AtHand) {e : Exchange ν} {a : Answer}
    (hunsent : e.response.headerSent = false)
    (hheader : call.header? e.response.header = some a.header) (hbody : call.body = a.body)
    (hfits : e.response.header.fault? = none → a.header.fault? = none) :
    a.GivenBy (Action.send call) e := by
  obtain ⟨sent, hwritten, hprefix, hall, _⟩ := Serving.puts_respond hunsent hheader
  rw [hbody] at hprefix hall
  constructor
  · rw [Action.exec_run_send]
    refine ⟨sent, hwritten, hprefix, fun hdone => ?_⟩
    obtain ⟨reply, hreply, hok⟩ := Option.map_eq_some_iff.1 hdone
    cases reply with
    | error failure => cases hok
    | ok result => exact hall result hreply
  · intro hwritable hclean
    rw [Action.exec_run_send, hwritable.exec_respond hcall hunsent hheader (hfits hclean)]
    rfl

end Answer

namespace ResponseHeader

section

variable (h : ResponseHeader) {name : String} (hcookie : sameName cookieField name = false)

/-- Putting the status right touches no field. -/
theorem values_correctStatus (hasBody : Bool) :
    (h.correctStatus hasBody).values name = h.values name := by
  unfold correctStatus
  split
  · rfl
  · split
    · rfl
    · rfl

include hcookie

/-- Announcing a length says nothing of other fields. -/
theorem values_announceLength (hname : sameName "Content-Length" name = false) (length : Nat) :
    (h.announceLength length).values name = h.values name := by
  unfold announceLength
  split
  · exact h.values_trySetField_of_ne hcookie hname _
  · rfl

/-- Announcing that there is no body touches only the length. -/
theorem values_announceNoBody (hname : sameName "Content-Length" name = false) :
    h.announceNoBody.values name = h.values name := by
  unfold announceNoBody
  split
  · rfl
  · exact h.values_announceLength hcookie hname 0

end

end ResponseHeader

namespace Mount

open HttpServer.Action

variable {ν : Type}

/-! ## The answers of a mount -/

/-- What a use of the files makes of a request: the contents of a file, or the status that refuses
it. -/
def contents : Except IoKind (List String × FileEntry) → Except Nat Bytes
  | .error kind => .error (statusOf ⟨kind, none⟩)
  | .ok (_, .directory) => .error 404
  | .ok (_, .file data) => .ok data

/-- A mount refuses a request with a status and its reason phrase. -/
def refusal (h : ResponseHeader) (code : Nat) : Answer where
  header := Serving.headerOfBody (h.setCode code) plainTextType (Utf8.ofString (reasonPhrase code))
  body := Utf8.ofString (reasonPhrase code)

/-- A file is sent. -/
def sent (h : ResponseHeader) (path : String) (data : Bytes) : Answer where
  header := Serving.headerOfSource
    ((h.trySetField "Content-Type" (mediaType path)).setCode 200) data.length
  body := data

/-- A file is described. -/
def described (h : ResponseHeader) (path : String) (data : Bytes) : Answer where
  header := (((h.setCode 200).setField "Content-Length" (decimal data.length)).trySetField
    "Content-Type" (mediaType path)).announceNoBody
  body := []

/-- What a mount makes of the request of an exchange, by one use of the files. -/
def asked (m : Mount ν) (e : Exchange ν)
    (find : FileTree → String → Except IoKind (List String × FileEntry)) : Except Nat Bytes :=
  if isTraversal e.view.path then .error 403
  else contents (find e.files (m.filePath e.view.path))

/-- A request is refused, or the contents of a file are answered with. -/
def answerTo (h : ResponseHeader) (give : Bytes → Answer) : Except Nat Bytes → Answer
  | .error code => refusal h code
  | .ok data => give data

/-- How a mount answers where a file is asked for. -/
def getAnswer (m : Mount ν) (e : Exchange ν) : Answer :=
  answerTo e.response.header (sent e.response.header (m.filePath e.view.path))
    (m.asked e FileTree.openRead)

/-- How a mount answers where its description is asked for. -/
def headAnswer (m : Mount ν) (e : Exchange ν) : Answer :=
  answerTo e.response.header (described e.response.header (m.filePath e.view.path))
    (m.asked e FileTree.find)

/-- The file to which the path of a request leads, with its place in the tree. -/
def target? (m : Mount ν) (e : Exchange ν) : Option (List String × Bytes) :=
  if isTraversal e.view.path then none
  else match e.files.find (m.filePath e.view.path) with
    | .ok (file, .file data) => some (file, data)
    | _ => none

/-- A file that is not there is never told of as an empty one. -/
theorem statusOf_ne_noContent (e : IoError) : statusOf e ≠ 204 := by
  unfold statusOf
  split <;> decide

/-- A header goes on being one when the media type of a file is set. -/
theorem fits_typed (path : String) {h : ResponseHeader} (hclean : h.fault? = none) :
    (h.trySetField "Content-Type" (mediaType path)).fault? = none :=
  fits_trySetField hclean ⟨(by decide : isToken "Content-Type" = true), isValue_mediaType path⟩

section

variable {e : Exchange ν} (hunsent : e.response.headerSent = false)

include hunsent

/-- A status with a phrase gives the refusal of that status. -/
theorem givenBy_refusal {code : Nat} (hcode : code ≠ 204) :
    (refusal e.response.header code).GivenBy (Action.send (.status code)) e := by
  have hcall : (ResponseCall.status code).AtHand := trivial
  apply Answer.givenBy_send hcall hunsent
  · exact if_neg hcode
  · exact if_neg hcode
  · intro hclean
    exact fits_headerOfBody (fits_setCode hclean code) (by decide +kernel) _

/-- Sending a file gives the answer that holds its bytes. -/
theorem givenBy_sent (path : String) (data : Bytes) :
    (sent e.response.header path data).GivenBy (do
      Action.change (.trySetField "Content-Type" (mediaType path))
      Action.change (.setCode 200)
      Action.send (.reader (Incoming.ofBytes data) data.length)) e := by
  have hcall : (ResponseCall.reader (Incoming.ofBytes data) data.length).AtHand :=
    Incoming.onlyBytes_ofBytes data
  apply Answer.GivenBy.change_bind
  · exact fits_typed path
  apply Answer.GivenBy.change_bind
  · exact fun hclean => fits_setCode hclean 200
  apply Answer.givenBy_send hcall
  · exact hunsent
  · rfl
  · exact Incoming.content_ofBytes data
  · exact fun hclean => fits_headerOfSource hclean data.length

/-- Describing a file gives the answer that holds its length and no bytes. -/
theorem givenBy_described (path : String) (data : Bytes) :
    (described e.response.header path data).GivenBy (do
      Action.change (.setCode 200)
      Action.change (.setField "Content-Length" (decimal data.length))
      Action.change (.trySetField "Content-Type" (mediaType path))
      Action.send .finish) e := by
  have hcall : ResponseCall.finish.AtHand := trivial
  apply Answer.GivenBy.change_bind
  · exact fun hclean => fits_setCode hclean 200
  apply Answer.GivenBy.change_bind
  · intro hclean
    exact fits_setField hclean ⟨(by decide : isToken "Content-Length" = true), isValue_decimal _⟩
  apply Answer.GivenBy.change_bind
  · exact fits_typed path
  apply Answer.givenBy_send hcall
  · exact hunsent
  · rfl
  · rfl
  · exact fits_announceNoBody

/-- A file is looked for. The request is refused if it cannot be used or is a directory, and
otherwise what it holds decides. -/
theorem givenBy_found {lookup : Handling ν (Except IoError FileEntry)}
    {found : Except IoKind (List String × FileEntry)} {give : Bytes → Answer}
    {goOn : Except IoError FileEntry → Handling ν Unit}
    (hlookup : Serving.exec lookup.run.run e =
      (some (some (.ok (FileTree.failure (found.map Prod.snd)))), e))
    (hfailure : ∀ failure, goOn (.error failure) = sendFailure failure)
    (hdirectory : goOn (.ok .directory) = Action.send (.status 404))
    (hfile : ∀ data, (give data).GivenBy (goOn (.ok (.file data))) e) :
    (answerTo e.response.header give (contents found)).GivenBy (lookup >>= goOn) e := by
  have hgoesOn : Serving.exec (lookup >>= goOn).run.run e =
      Serving.exec (goOn (FileTree.failure (found.map Prod.snd))).run.run e := by
    rw [exec_run_ebind, hlookup]
  apply Answer.GivenBy.of_exec _ hgoesOn
  rcases found with kind | ⟨file, data | _⟩
  · apply Answer.GivenBy.of_exec (givenBy_refusal hunsent (statusOf_ne_noContent ⟨kind, none⟩))
    exact congrArg (fun p => Serving.exec p.run.run e) (hfailure ⟨kind, none⟩)
  · exact hfile data
  · apply Answer.GivenBy.of_exec (givenBy_refusal hunsent (by decide : 404 ≠ 204))
    exact congrArg (fun p => Serving.exec p.run.run e) hdirectory

/-- **What sending a file answers** is decided by opening it. -/
theorem givenBy_sendFile (path : String) :
    (answerTo e.response.header (sent e.response.header path)
      (contents (e.files.openRead path))).GivenBy (sendFile path) e := by
  apply givenBy_found hunsent (exec_run_eperform (.file (.openRead path)) e)
  · exact fun _ => rfl
  · rfl
  · exact givenBy_sent hunsent path

/-- **What describing a file answers** is decided by looking it up. -/
theorem givenBy_describeFile (path : String) :
    (answerTo e.response.header (described e.response.header path)
      (contents (e.files.find path))).GivenBy (describeFile path) e := by
  apply givenBy_found hunsent (exec_run_eperform (.file (.find path)) e)
  · exact fun _ => rfl
  · rfl
  · exact givenBy_described hunsent path

end

/-- Where nothing is vetoed, a mount refuses paths that could climb and acts on all others. -/
theorem exec_handler_of_allowed {m : Mount ν} (hallows : m.allows = pure true)
    (method : MountMethod) (e : Exchange ν) : Serving.exec (m.handler method).run.run e =
      Serving.exec (if isTraversal e.view.path then Action.send (.status 403)
        else m.act method (m.filePath e.view.path) : Handling ν Unit).run.run e := by
  have hveto : Serving.exec m.allows.run e = (some (some true), e) := by
    rw [hallows]
    rfl
  rw [exec_handler hveto]
  rfl

/-- A path that could climb is refused by each method, and any other one is left to its action. -/
theorem givenBy_handler {m : Mount ν} (hallows : m.allows = pure true) {e : Exchange ν}
    (hunsent : e.response.headerSent = false) {method : MountMethod} {give : Bytes → Answer}
    {find : FileTree → String → Except IoKind (List String × FileEntry)}
    (hact : (answerTo e.response.header give
      (contents (find e.files (m.filePath e.view.path)))).GivenBy
        (m.act method (m.filePath e.view.path)) e) :
    (answerTo e.response.header give (m.asked e find)).GivenBy (m.handler method) e := by
  apply Answer.GivenBy.of_exec _ (exec_handler_of_allowed hallows method e)
  rw [asked]
  by_cases hclimbs : isTraversal e.view.path = true
  · rw [if_pos hclimbs, if_pos hclimbs]
    exact givenBy_refusal hunsent (by decide : 403 ≠ 204)
  · rw [if_neg hclimbs, if_neg hclimbs]
    exact hact

/-- A mount answers GET by sending the file. -/
theorem givenBy_get {m : Mount ν} (hallows : m.allows = pure true) {e : Exchange ν}
    (hunsent : e.response.headerSent = false) : (m.getAnswer e).GivenBy (m.handler .get) e := by
  apply givenBy_handler hallows hunsent
  exact givenBy_sendFile hunsent _

/-- A mount answers HEAD by describing the file. -/
theorem givenBy_head {m : Mount ν} (hallows : m.allows = pure true) {e : Exchange ν}
    (hunsent : e.response.headerSent = false) : (m.headAnswer e).GivenBy (m.handler .head) e := by
  apply givenBy_handler hallows hunsent
  exact givenBy_describeFile hunsent _

/-! ## Where the answers agree -/

section

variable {m : Mount ν} {e : Exchange ν}

/-- A file that is asked for can be looked up, and no way around leads to it. -/
theorem find_of_target? {file : List String} {data : Bytes} (h : m.target? e = some (file, data)) :
    isTraversal e.view.path = false ∧
      e.files.find (m.filePath e.view.path) = .ok (file, .file data) := by
  unfold target? at h
  split at h
  · cases h
  · rename_i hsafe
    split at h
    · rename_i hfound
      cases h
      exact ⟨by simpa using hsafe, hfound⟩
    · cases h

/-- A file is described even if it cannot be opened. -/
theorem headAnswer_of_target? {file : List String} {data : Bytes}
    (h : m.target? e = some (file, data)) :
    m.headAnswer e = described e.response.header (m.filePath e.view.path) data := by
  obtain ⟨hsafe, hfound⟩ := find_of_target? h
  rw [headAnswer, asked, hsafe, hfound]
  rfl

/-- A file is sent if it can be opened, and otherwise forbidden. -/
theorem getAnswer_of_target? {file : List String} {data : Bytes}
    (h : m.target? e = some (file, data)) : m.getAnswer e =
      if file ∈ e.files.unreadable then refusal e.response.header 403
      else sent e.response.header (m.filePath e.view.path) data := by
  obtain ⟨hsafe, hfound⟩ := find_of_target? h
  rw [getAnswer, asked, hsafe, FileTree.openRead, hfound]
  by_cases hmem : file ∈ e.files.unreadable
  · simp only [hmem, if_true]
    rfl
  · simp only [hmem, if_false]
    rfl

/-- Where there is no file, looking it up and opening it find the same. -/
theorem asked_of_no_target? (h : m.target? e = none) :
    ∃ code, m.asked e FileTree.find = .error code ∧ m.asked e FileTree.openRead = .error code := by
  unfold target? at h
  rw [asked, asked]
  split at h
  · rename_i hclimbs
    exact ⟨403, if_pos hclimbs, if_pos hclimbs⟩
  · rename_i hsafe
    rw [if_neg hsafe, if_neg hsafe, FileTree.openRead]
    rcases hfound : e.files.find (m.filePath e.view.path) with kind | ⟨file, data | _⟩
    · exact ⟨statusOf ⟨kind, none⟩, rfl, rfl⟩
    · rw [hfound] at h
      cases h
    · exact ⟨404, rfl, rfl⟩

end

section

variable {h : ResponseHeader} (path : String) (data : Bytes)

theorem code_described : (described h path data).header.code = 200 := by
  refine (code_announceNoBody _).trans ?_
  exact code_trySetField _ _ _

/-- A file that is empty is sent with status 204. -/
theorem code_sent : (sent h path data).header.code = if data = [] then 204 else 200 := by
  refine (code_headerOfSource _ _).trans ?_
  cases data <;> rfl

theorem code_refusal_forbidden : (refusal h 403).header.code = 403 := by
  refine (code_headerOfBody _ _ _).trans ?_
  rfl

/-- A file that is sent has its length announced, if it is not empty. -/
theorem lengths_sent (hunframed : h.Unframed) (hdata : data ≠ []) :
    (sent h path data).header.lengths = [decimal data.length] := by
  have hsame : SameFraming h ((h.trySetField "Content-Type" (mediaType path)).setCode 200) :=
    (h.sameFraming_trySetField (by decide) _).trans (sameFraming_setCode _ 200)
  have hfresh := (madeFor_headerOfSource _ data.length).fresh (hsame.unframed hunframed)
  have hcode : (sent h path data).header.code = 200 := by
    rw [code_sent, if_neg hdata]
  refine hfresh.trans ?_
  change (if announcesLength (sent h path data).header.code then _ else _) = _
  rw [hcode]
  rfl

/-- A file that is described has it announced in any case. -/
theorem lengths_described (hunframed : h.Unframed) :
    (described h path data).header.lengths = [decimal data.length] := by
  have hset : ((h.setCode 200).setField "Content-Length" (decimal data.length)).lengths =
      [decimal data.length] := by
    refine (values_setField _ cookieField_ne.1 _ _).trans ?_
    change (if _ then decimal data.length :: h.lengths.tail else _) = _
    rw [hunframed.lengths]
    rfl
  have htyped := (sameFraming_trySetField ((h.setCode 200).setField "Content-Length"
    (decimal data.length)) (by decide : sameName "Content-Type" "Content-Length" = false ∧
      sameName "Content-Type" "Transfer-Encoding" = false) (mediaType path)).1.trans hset
  refine ((madeFor_announceNoBody _).kept ?_).trans htyped
  rw [htyped]
  exact List.cons_ne_nil _ _

/-- What is said of the media type depends on what was said before, and on the file. -/
theorem mediaTypes_sent : (sent h path data).header.values "Content-Type" =
    (h.trySetField "Content-Type" (mediaType path)).values "Content-Type" := by
  have hcookie : sameName cookieField "Content-Type" = false := by decide
  have htyped := h.values_trySetField hcookie (mediaType path)
  have hsome : (h.trySetField "Content-Type" (mediaType path)).values "Content-Type" ≠ [] := by
    rw [htyped]
    split
    · exact List.cons_ne_nil _ _
    · assumption
  refine (values_announceLength _ hcookie (by decide) _).trans ?_
  refine (values_trySetField _ hcookie _).trans ?_
  rw [values_correctStatus]
  exact if_neg hsome

/-- The media type of a description is that of the path, unless one was set before. -/
theorem mediaTypes_described : (described h path data).header.values "Content-Type" =
    (h.trySetField "Content-Type" (mediaType path)).values "Content-Type" := by
  have hcookie : sameName cookieField "Content-Type" = false := by decide
  have hset : ((h.setCode 200).setField "Content-Length" (decimal data.length)).values
      "Content-Type" = h.values "Content-Type" := by
    refine (values_setField _ hcookie _ _).trans ?_
    rfl
  refine (values_announceNoBody _ hcookie (by decide)).trans ?_
  rw [values_trySetField _ hcookie, hset, h.values_trySetField hcookie]

/-- A description agrees with a file that is sent if there is something in it. -/
theorem agrees_described_sent_iff (hunframed : h.Unframed) :
    (described h path data).Agrees (sent h path data) ↔ data ≠ [] := by
  constructor
  · rintro ⟨hcode, _, _⟩ hdata
    rw [code_described, code_sent, if_pos hdata] at hcode
    cases hcode
  · intro hdata
    refine ⟨?_, ?_, ?_⟩
    · rw [code_described, code_sent, if_neg hdata]
    · rw [lengths_described path data hunframed, lengths_sent path data hunframed hdata]
    · rw [mediaTypes_described, mediaTypes_sent]

end

/-- **Where describing a file agrees with sending it.** Whatever the files are and whatever path is
asked for below a mount that vetoes nothing, both methods answer, out of the same files. The
descriptions agree with what is sent unless the path leads to a file that is empty or cannot be
opened, and the description has no body exactly if the path leads to a file. -/
theorem head_agrees_iff {m : Mount ν} (hallows : m.allows = pure true) {e : Exchange ν}
    (hunsent : e.response.headerSent = false) (hunframed : e.response.header.Unframed) :
    (m.getAnswer e).GivenBy (m.handler .get) e ∧ (m.headAnswer e).GivenBy (m.handler .head) e ∧
      ((m.headAnswer e).Agrees (m.getAnswer e) ↔ ∀ file data, m.target? e = some (file, data) →
        data ≠ [] ∧ file ∉ e.files.unreadable) ∧
      ((m.headAnswer e).body = [] ↔ (m.target? e).isSome) := by
  refine ⟨givenBy_get hallows hunsent, givenBy_head hallows hunsent, ?_⟩
  rcases htarget : m.target? e with _ | ⟨file, data⟩
  · obtain ⟨code, hfind, hopen⟩ := asked_of_no_target? htarget
    rw [headAnswer, getAnswer, hfind, hopen]
    constructor
    · exact iff_of_true ⟨rfl, rfl, rfl⟩ nofun
    · exact iff_of_false (reasonPhrase_ne_nil code) Bool.false_ne_true
  · rw [headAnswer_of_target? htarget, getAnswer_of_target? htarget]
    constructor
    · have hfile : (∀ other contents, some (file, data) = some (other, contents) →
          contents ≠ [] ∧ other ∉ e.files.unreadable) ↔ data ≠ [] ∧ file ∉ e.files.unreadable := by
        constructor
        · exact fun hall => hall file data rfl
        · rintro hone _ _ ⟨⟩
          exact hone
      rw [hfile]
      by_cases hmem : file ∈ e.files.unreadable
      · rw [if_pos hmem]
        refine iff_of_false (fun hagrees => ?_) fun hno => hno.2 hmem
        have hcode := hagrees.code
        rw [code_described, code_refusal_forbidden] at hcode
        cases hcode
      · rw [if_neg hmem, agrees_described_sent_iff _ _ hunframed]
        exact (and_iff_left hmem).symm
    · exact iff_of_true rfl rfl

/-- A directory with two files, one of them empty. -/
def shelf : FileTree where
  entries := [(["srv"], .directory), (["srv", "documents"], .directory),
    (["srv", "documents", "note.txt"], .file [0x68, 0x69]),
    (["srv", "documents", "empty.txt"], .file [])]

/-- The exchange of a request for a file on the shelf. -/
def askingFor (target : String) : Exchange Unit :=
  { Exchange.accept { files := shelf, sessions := { mint := fun _ => "" } } {} none {} {} [] with
    request := some { header := .ofSection { target } } }

/-- A file with something in it is described as it is sent. -/
theorem agrees_note :
    documents.target? (askingFor "/files/note.txt") =
        some (["srv", "documents", "note.txt"], [0x68, 0x69]) ∧
      (Serving.exec (documents.handler .head).run.run (askingFor "/files/note.txt")).1 =
        some (some (.ok ())) ∧
      (documents.headAnswer (askingFor "/files/note.txt")).Agrees
        (documents.getAnswer (askingFor "/files/note.txt")) ∧
      (documents.headAnswer (askingFor "/files/note.txt")).body = [] := by
  have htarget : documents.target? (askingFor "/files/note.txt") =
      some (["srv", "documents", "note.txt"], [0x68, 0x69]) := by
    decide +kernel
  have hwritable : (askingFor "/files/note.txt").Writable := ⟨⟨rfl, rfl⟩, rfl, rfl⟩
  have hallows : documents.allows = pure true := rfl
  have hunsent : (askingFor "/files/note.txt").response.headerSent = false := rfl
  obtain ⟨_, hhead, hagrees, hbody⟩ := head_agrees_iff hallows hunsent ⟨rfl, rfl⟩
  refine ⟨htarget, hhead.succeeds hwritable rfl, hagrees.2 ?_, hbody.2 (by rw [htarget]; rfl)⟩
  intro file data hfile
  rw [htarget] at hfile
  cases hfile
  exact ⟨List.cons_ne_nil _ _, List.not_mem_nil⟩

/-- What a method of the mount puts on the wire for a file on the shelf. -/
def onWire (method : MountMethod) (target : String) : Bytes :=
  (Serving.exec (documents.handler method).run.run (askingFor target)).2.outgoing.written

/-- **The description of an empty file** has another status than the file, and a length besides.
What is not there is described with a body. -/
theorem described_otherwise :
    onWire .get "/files/empty.txt" = Utf8.ofString
        ("HTTP/1.1 204 No Content\r\nContent-Type: text/plain; charset=utf-8\r\n\r\n") ∧
      onWire .head "/files/empty.txt" = Utf8.ofString
        ("HTTP/1.1 200 OK\r\nContent-Length: 0\r\n" ++
          "Content-Type: text/plain; charset=utf-8\r\n\r\n") ∧
      onWire .head "/files/none.txt" = Utf8.ofString
        ("HTTP/1.1 404 Not Found\r\nContent-Type: text/plain; charset=utf-8\r\n" ++
          "Content-Length: 9\r\n\r\nNot Found") := by
  decide +kernel

end Mount

end HttpServer
