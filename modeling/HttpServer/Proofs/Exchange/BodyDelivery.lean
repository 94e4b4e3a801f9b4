import HttpServer.Proofs.Exchange.Reads
import HttpServer.Proofs.Request.Grammar

/-!
# What a sink receives of a body

A body reaches its sink in two ways: first what arrived with the header, then what further reads
bring, and a sink may take any part of what it is offered. None of this shows in what it received:
the first bytes behind the header, as many as the request announces and the caller allows
(`Serving.body_delivered`). Only a sink that cannot be flushed turns this into a failure.
-/

namespace HttpServer

/-! ## Sinks that take what they are offered -/

/-- A sink has received what it took of the offers, one after the other. -/
theorem SinkRecord.received_add (r : SinkRecord) (offer : Offer) :
    (r.add offer).received = r.received ++ offer.taken := by
  rw [received, add, List.flatMap_append, List.flatMap_singleton]
  rfl

namespace Sink

/-- The sink takes at least one of the bytes that it is offered, and no more than there are. -/
def Takes (s : Sink) : Prop :=
  ∀ offers data, data ≠ [] →
    ∃ count, s.accept offers data = .ok count ∧ 0 < count ∧ count ≤ data.length

/-- No bytes are not even offered. -/
theorem fill_nil (s : Sink) (record : SinkRecord) : s.fill record [] = (record, .ok ()) := by
  rw [fill, dif_pos rfl]

/-- What a sink does not take is offered again. -/
theorem fill_of_accept {s : Sink} {record : SinkRecord} {data : Bytes} {count : Nat}
    (hdata : data ≠ []) (haccept : s.accept record.offers data = .ok (count + 1)) :
    s.fill record data =
      s.fill (record.add { data, answer := .ok (count + 1) }) (data.drop (count + 1)) := by
  rw [fill, dif_neg hdata, haccept]

/-- **A sink that takes bytes gets all of them**, however few it takes at a time. -/
theorem fill_of_takes {s : Sink} (h : s.Takes) (record : SinkRecord) (data : Bytes) :
    ∃ filled, s.fill record data = (filled, .ok ()) ∧
      filled.received = record.received ++ data ∧ filled.flushes = record.flushes := by
  induction record, data using fill.induct s with
  | case1 record => exact ⟨record, s.fill_nil record, (List.append_nil _).symm, rfl⟩
  | case2 record data hdata _ failure hrefused =>
      obtain ⟨count, haccept, _⟩ := h record.offers data hdata
      cases haccept.symm.trans hrefused
  | case3 record data hdata _ hnone =>
      obtain ⟨count, haccept, hsome, _⟩ := h record.offers data hdata
      cases haccept.symm.trans hnone
      cases hsome
  | case4 record data hdata answer offered count haccept ih =>
      have hoffered : offered = record.add { data, answer := .ok (count + 1) } :=
        congrArg (fun answer => record.add { data, answer }) haccept
      rw [hoffered] at ih
      obtain ⟨filled, hfill, hreceived, hflushes⟩ := ih
      refine ⟨filled, (fill_of_accept hdata haccept).trans hfill, ?_, hflushes⟩
      rw [hreceived, SinkRecord.received_add, List.append_assoc]
      exact congrArg (record.received ++ ·) (List.take_append_drop (count + 1) data)

end Sink

/-- The request without so many of the bytes that arrived with its header. -/
def Request.drained (request : Request) (count : Nat) : Request :=
  { request with leftover := request.leftover.drop count }

namespace Serving

open Exchange

variable {ν : Type}

/-- Bytes poured into a sink that takes them change nothing else but its file. -/
theorem exec_pour_of_takes {sink : Sink} (hsink : sink.Takes) (record : SinkRecord) (data : Bytes)
    (e : Exchange ν) (files : FileTree) (request : Option Request) :
    ∃ filled after, exec (pour sink record data) (e.bearing files request) =
        (some (filled, .ok ()), e.bearing after request) ∧
      filled.received = record.received ++ data ∧ filled.flushes = record.flushes := by
  obtain ⟨filled, hfill, hreceived, hflushes⟩ := Sink.fill_of_takes hsink record data
  rw [pour, hfill]
  exact ⟨filled, _, rfl, hreceived, hflushes⟩

/-! ## Reading on -/

/-- **Reading on until so many bytes have come**: what the reads bring, how it ends and what it
leaves behind. A read is made only while bytes are missing. -/
inductive Draws (wanted : Nat) (e : Exchange ν) (chunks : List Bytes) :
    Option (Except ConnectionError Unit) × Exchange ν → Prop
  | enough {last : Exchange ν} (hreads : Reads e chunks last)
      (hfrugal : ∀ before, before <+: chunks → before ≠ chunks → before.flatten.length < wanted)
      (henough : wanted ≤ chunks.flatten.length) : Draws wanted e chunks (some (.ok ()), last)
  | fails {last later : Exchange ν} {failure : ConnectionError} (hreads : Reads e chunks last)
      (hshort : chunks.flatten.length < wanted)
      (hread : exec read.run last = (some (.error failure), later)) :
      Draws wanted e chunks (some (.error failure), later)
  | hangs {last later : Exchange ν} (hreads : Reads e chunks last)
      (hshort : chunks.flatten.length < wanted) (hread : exec read.run last = (none, later)) :
      Draws wanted e chunks (none, later)

/-- Where nothing is wanted, nothing is read. -/
theorem Draws.none (e : Exchange ν) : Draws 0 e [] (some (.ok ()), e) :=
  .enough (.none e) (fun _ hprefix hne => absurd (List.prefix_nil.1 hprefix) hne) (Nat.zero_le _)

/-- A read in front brings its part of what is wanted. -/
theorem Draws.next {wanted : Nat} {e mid : Exchange ν} {data : Bytes} {chunks : List Bytes}
    {ending : Option (Except ConnectionError Unit) × Exchange ν} (hwanted : 0 < wanted)
    (hread : exec read.run e = (some (.ok data), mid))
    (hrest : Draws (wanted - data.length) mid chunks ending) :
    Draws wanted e (data :: chunks) ending := by
  cases hrest with
  | enough hreads hfrugal henough =>
      refine .enough (.next hread hreads) (fun before hprefix hne => ?_) ?_
      · cases before with
        | nil => exact hwanted
        | cons first before =>
            obtain ⟨rfl, hbefore⟩ := List.cons_prefix_cons.1 hprefix
            have hless := hfrugal before hbefore fun heq => hne (heq ▸ rfl)
            rw [List.flatten_cons, List.length_append]
            omega
      · rw [List.flatten_cons, List.length_append]
        omega
  | fails hreads hshort hfails =>
      refine .fails (.next hread hreads) ?_ hfails
      rw [List.flatten_cons, List.length_append]
      omega
  | hangs hreads hshort hhangs =>
      refine .hangs (.next hread hreads) ?_ hhangs
      rw [List.flatten_cons, List.length_append]
      omega

/-- **The loop that reads on** draws what is wanted from the connection, whatever was done to the
files and the request, and gives that much to the sink. -/
theorem exec_readOnward {sink : Sink} (hsink : sink.Takes) {rounds wanted : Nat}
    (hrounds : wanted ≤ rounds) (record : SinkRecord) (e : Exchange ν) (files : FileTree)
    (request : Option Request) :
    ∃ chunks outcome later filled after, Draws wanted e chunks (outcome, later) ∧
      filled.received = record.received ++ chunks.flatten.take wanted ∧
      filled.flushes = record.flushes ∧
      exec (readOnward sink rounds wanted record) (e.bearing files request) =
        (outcome.map fun ending => (filled, ending.mapError .connection),
          later.bearing after request) := by
  have hnothing (received : Bytes) (n : Nat) : received = received ++ [].flatten.take n := by simp
  induction rounds generalizing wanted record e files with
  | zero =>
      cases Nat.le_zero.1 hrounds
      exact ⟨[], _, e, record, files, .none e, hnothing _ _, rfl, rfl⟩
  | succ rounds ih =>
      obtain rfl | hwanted := Nat.eq_zero_or_pos wanted
      · exact ⟨[], _, e, record, files, .none e, hnothing _ _, rfl, rfl⟩
      rw [readOnward, if_neg (Nat.ne_of_gt hwanted), exec_bind, exec_read_bearing]
      rcases hread : exec read.run e with ⟨_ | failure | data, mid⟩
      · exact ⟨[], none, mid, record, files, .hangs (.none e) hwanted hread, hnothing _ _, rfl, rfl⟩
      · exact ⟨[], _, mid, record, files, .fails (.none e) hwanted hread, hnothing _ _, rfl, rfl⟩
      -- A round is spent, and the read has brought at least one byte.
      have hsome : 0 < data.length := List.length_pos_iff.2 (ne_nil_of_exec_read hread)
      have hleft : wanted - data.length ≤ rounds := by omega
      obtain ⟨poured, between, hpour, hpoured, hflushes⟩ :=
        exec_pour_of_takes hsink record (data.take wanted) mid files request
      obtain ⟨chunks, outcome, later, filled, after, hdraws, hreceived, hkept, hexec⟩ :=
        ih hleft poured mid between
      dsimp only
      rw [exec_bind, hpour]
      refine ⟨data :: chunks, outcome, later, filled, after, hdraws.next hwanted hread, ?_,
        hkept.trans hflushes, hexec⟩
      rw [hreceived, hpoured, List.flatten_cons, List.take_append, List.append_assoc]

/-! ## Reading a body -/

/-- **Reading a capped body** pours what is in hand and draws the rest. -/
theorem exec_readCapped {sink : Sink} (hsink : sink.Takes) (cap : Nat) {e : Exchange ν}
    {request : Request} (hrequest : e.request = some request) :
    ∃ chunks outcome later record files,
      Draws (cap - request.leftover.length) e chunks (outcome, later) ∧
      record.received = (request.leftover ++ chunks.flatten).take cap ∧ record.flushes = 0 ∧
      exec (readCapped sink cap) e =
        (outcome.map fun
          | .error failure => (record, .error (.connection failure))
          | .ok () => ((sink.conclude record).1,
              ((sink.flush record.offers).mapError .sink).map fun _ => cap),
          later.bearing files (some (request.drained cap))) := by
  obtain ⟨poured, between, hpour, hpoured, hflushes⟩ := exec_pour_of_takes hsink {}
    (request.leftover.take cap) e e.files (some (request.drained cap))
  obtain ⟨chunks, outcome, later, record, files, hdraws, hreceived, hkept, hexec⟩ :=
    exec_readOnward hsink (Nat.le_refl (cap - request.leftover.length)) poured e between
      (some (request.drained cap))
  refine ⟨chunks, outcome, later, record, files, hdraws, ?_, hkept.trans hflushes, ?_⟩
  · rw [hreceived, hpoured, List.take_append]
    rfl
  have hleftover : (e.request.map Request.leftover).getD [] = request.leftover := by
    rw [hrequest]
    rfl
  have hdrained : (e.changeRequest fun r => { r with leftover := request.leftover.drop cap }) =
      e.bearing e.files (some (request.drained cap)) := by
    rw [changeRequest, hrequest]
    rfl
  rw [readCapped, exec_bind, exec_get]
  dsimp only
  rw [hleftover, exec_bind, exec_modify]
  dsimp only
  rw [hdrained, exec_bind, hpour]
  dsimp only
  rw [exec_bind, hexec]
  rcases outcome with _ | _ | _
  · rfl
  · rfl
  · rfl

/-- How much of a body of the announced length is wanted; no limit is meant by zero. -/
def wantedOf (announced limit : Nat) : Nat := if limit = 0 then announced else min announced limit

/-- A body is read only if its length is announced. -/
theorem exec_readBody (sink : Sink) (limit : Nat) {e : Exchange ν} {request : Request}
    (hrequest : e.request = some request) :
    exec (readBody sink limit) e = match request.header.contentLength? with
      | none => (some ({}, .error .lengthRequired), e)
      | some announced => exec (readCapped sink (wantedOf announced limit)) e := by
  rw [readBody, exec_bind, exec_get]
  dsimp only
  rw [hrequest]
  cases h : request.header.contentLength? with
  | none => simp only [Option.bind_some, h]; rfl
  | some announced => simp only [Option.bind_some, h]; rfl

/-- **What comes of reading a body**, if so many bytes of it are wanted, some of them are in hand
and the whole of it would be the given bytes. -/
inductive Delivers (sink : Sink) (wanted : Nat) (request : Request) (body : Bytes)
    (e : Exchange ν) : Option (SinkRecord × Except BodyError Nat) × Exchange ν → Prop
  /-- Enough bytes came. The sink received those that were wanted and was flushed, which decides
  the result. While there were enough bytes in hand, nothing was read. -/
  | full {chunks : List Bytes} {last : Exchange ν} {record : SinkRecord} {files : FileTree}
      (hreads : Reads e chunks last)
      (hfrugal : ∀ before, before <+: chunks → before ≠ chunks →
        (request.leftover ++ before.flatten).length < wanted)
      (henough : wanted ≤ (request.leftover ++ chunks.flatten).length)
      (hreceived : record.received = body.take wanted) (hcount : record.received.length = wanted)
      (hflushes : record.flushes = 1) :
      Delivers sink wanted request body e
        (some (record, ((sink.flush record.offers).mapError .sink).map fun _ => wanted),
          last.bearing files (some (request.drained wanted)))
  /-- A read failed before. The sink received what had come until then, and that is the whole body
  unless the connection was stopped or a deadline missed. -/
  | short {chunks : List Bytes} {last later : Exchange ν} {record : SinkRecord} {files : FileTree}
      {failure : ConnectionError} (hreads : Reads e chunks last)
      (hshort : (request.leftover ++ chunks.flatten).length < wanted)
      (hread : exec read.run last = (some (.error failure), later))
      (hreceived : record.received = request.leftover ++ chunks.flatten)
      (hwhole : failure ≠ .aborted → failure ≠ .timedOut → record.received = body)
      (hflushes : record.flushes = 0) :
      Delivers sink wanted request body e
        (some (record, .error (.connection failure)),
          later.bearing files (some (request.drained wanted)))
  /-- A read never ended, and only then does reading the body never end. -/
  | hangs {chunks : List Bytes} {last later : Exchange ν} {files : FileTree}
      (hreads : Reads e chunks last)
      (hshort : (request.leftover ++ chunks.flatten).length < wanted)
      (hread : exec read.run last = (none, later)) :
      Delivers sink wanted request body e
        (none, later.bearing files (some (request.drained wanted)))

/-- **Reading a body delivers its first bytes**: what came with the header goes first, and further
reads bring the rest. -/
theorem delivers_readCapped {sink : Sink} (hsink : sink.Takes) (wanted : Nat) {e : Exchange ν}
    {request : Request} (hrequest : e.request = some request) :
    Delivers sink wanted request (request.leftover ++ e.incoming.content) e
      (exec (readCapped sink wanted) e) := by
  obtain ⟨chunks, outcome, later, record, files, hdraws, hreceived, hflushes, hexec⟩ :=
    exec_readCapped hsink wanted hrequest
  rw [hexec]
  cases hdraws with
  | enough hreads hfrugal henough =>
      have hlength : wanted ≤ (request.leftover ++ chunks.flatten).length := by
        rw [List.length_append]
        omega
      refine .full hreads (fun before hprefix hne => ?_) hlength ?_ ?_ ?_
      · have hless := hfrugal before hprefix hne
        rw [List.length_append]
        omega
      · rw [hreads.content, ← List.append_assoc, List.take_append_of_le_length hlength]
        exact hreceived
      · have hcount := congrArg List.length hreceived
        rw [List.length_take, Nat.min_eq_left hlength] at hcount
        exact hcount
      · exact congrArg (· + 1) hflushes
  | fails hreads hshort hread =>
      have hlength : (request.leftover ++ chunks.flatten).length < wanted := by
        rw [List.length_append]
        omega
      rw [List.take_of_length_le (Nat.le_of_lt hlength)] at hreceived
      refine .short hreads hlength hread hreceived (fun haborted htimedOut => ?_) hflushes
      rw [hreceived, hreads.content, content_eq_nil_of_exec_read hread haborted htimedOut,
        List.append_nil]
  | hangs hreads hshort hread =>
      refine .hangs hreads ?_ hread
      rw [List.length_append]
      omega

/-- The body is read well exactly if all that is wanted comes and the sink can be flushed. -/
theorem Delivers.ok_iff {sink : Sink} {wanted : Nat} {request : Request} {body : Bytes}
    {e : Exchange ν} {ending : Option (SinkRecord × Except BodyError Nat) × Exchange ν}
    (h : Delivers sink wanted request body e ending) :
    (∃ record count, ending.1 = some (record, .ok count)) ↔
      (∃ chunks last, Reads e chunks last ∧
        wanted ≤ (request.leftover ++ chunks.flatten).length) ∧
      ∀ record result, ending.1 = some (record, result) → sink.flush record.offers = .ok () := by
  cases h with
  | @full chunks last record files hreads hfrugal henough hreceived hcount hflushes =>
      constructor
      · rintro ⟨_, count, hok⟩
        refine ⟨⟨chunks, last, hreads, henough⟩, fun other result hother => ?_⟩
        cases hother
        cases hflush : sink.flush record.offers with
        | ok _ => rfl
        | error failure =>
            rw [hflush] at hok
            cases hok
      · rintro ⟨_, hflush⟩
        refine ⟨record, wanted, ?_⟩
        rw [hflush record _ rfl]
        rfl
  | short hreads hshort hread hreceived hwhole hflushes =>
      constructor
      · rintro ⟨_, _, hok⟩
        cases hok
      · rintro ⟨⟨chunks, last, hothers, henough⟩, _⟩
        have hle := hothers.length_le request.leftover hreads (by simp [hread])
        omega
  | hangs hreads hshort hread =>
      constructor
      · rintro ⟨_, _, hok⟩
        cases hok
      · rintro ⟨⟨chunks, last, hothers, henough⟩, _⟩
        have hle := hothers.length_le request.leftover hreads (by simp [hread])
        omega

/-- Then the sink has received all that is wanted, and the count says so. -/
theorem Delivers.eq_of_ok {sink : Sink} {wanted count : Nat} {request : Request} {body : Bytes}
    {e : Exchange ν} {ending : Option (SinkRecord × Except BodyError Nat) × Exchange ν}
    {record : SinkRecord} (h : Delivers sink wanted request body e ending)
    (hok : ending.1 = some (record, .ok count)) :
    count = wanted ∧ record.received = body.take wanted := by
  cases h with
  | @full chunks last filled files hreads hfrugal henough hreceived hcount hflushes =>
      cases hflush : sink.flush filled.offers with
      | ok _ =>
          rw [hflush] at hok
          cases hok
          exact ⟨rfl, hreceived⟩
      | error failure =>
          rw [hflush] at hok
          cases hok
  | short hreads hshort hread hreceived hwhole hflushes => cases hok
  | hangs hreads hshort hread => cases hok

/-! ## The body behind a header -/

/-- **A header was read** from the start of an exchange, and nothing of the body since. -/
structure HeaderRead (start : Exchange ν) (reader : HeaderReader) (request : Request)
    (e : Exchange ν) : Prop where
  read : ∃ later, exec readHeader.run start = (some (.ok reader), later) ∧
    e.incoming = later.incoming
  bound : e.request = some request
  header : request.header = RequestHeader.ofSection reader.header
  leftover : request.leftover = reader.buffer

/-- An exchange is bound to the request whose header was read. -/
theorem headerRead_bind {start later : Exchange ν} {reader : HeaderReader}
    (h : exec readHeader.run start = (some (.ok reader), later)) :
    HeaderRead start reader
      { header := RequestHeader.ofSection reader.header, leftover := reader.buffer }
      (later.bind reader) :=
  ⟨⟨later, h, rfl⟩, rfl, rfl, rfl⟩

/-- The reader and what can still be read are what the stream leads to when it comes in one
piece. -/
theorem HeaderRead.run_eq {start e : Exchange ν} {reader : HeaderReader} {request : Request}
    (h : HeaderRead start reader request e) :
    ({ limits := start.settings.limits, buffer := start.incoming.content } : HeaderReader).run =
      (reader.extend e.incoming.content, .ok .finished) := by
  obtain ⟨later, hexec, hincoming⟩ := h.read
  rw [hincoming]
  exact run_of_exec_readHeader hexec

/-- The whole stream spells the header that was read, with the whole body behind it. -/
theorem HeaderRead.exists_text {start e : Exchange ν} {reader : HeaderReader} {request : Request}
    (h : HeaderRead start reader request e) :
    ∃ t : HeaderText, t.Accepted start.settings.limits ∧ t.bytes = start.incoming.content ∧
      t.Says (reader.extend e.incoming.content) := by
  obtain ⟨t, haccepted, hbytes⟩ := HeaderReader.exists_text_of_run h.run_eq
  obtain ⟨final, hfinal, hsaid⟩ := HeaderReader.run_of_text haccepted
  rw [hbytes, h.run_eq] at hfinal
  cases hfinal
  exact ⟨t, haccepted, hbytes, hsaid⟩

/-- The body is what is left over of the header's last piece, and what is still to come. -/
theorem HeaderRead.body_eq {start e : Exchange ν} {reader : HeaderReader} {request : Request}
    {t : HeaderText} (h : HeaderRead start reader request e)
    (hsaid : t.Says (reader.extend e.incoming.content)) :
    t.body = request.leftover ++ e.incoming.content := by
  rw [← hsaid.leftover, h.leftover]
  rfl

/-- **Two streams of the same bytes** lead to the same body, whatever the cuts, the moments of
arrival, the sizes of the read buffers and the sinks. -/
theorem received_eq_of_content_eq {start other e f : Exchange ν} {reader reader' : HeaderReader}
    {request request' : Request} {sink sink' : Sink} {limit count count' : Nat}
    {record record' : SinkRecord} (hlimits : start.settings.limits = other.settings.limits)
    (hcontent : start.incoming.content = other.incoming.content)
    (h : HeaderRead start reader request e) (h' : HeaderRead other reader' request' f)
    (hsink : sink.Takes) (hsink' : sink'.Takes)
    (hok : (exec (readBody sink limit) e).1 = some (record, .ok count))
    (hok' : (exec (readBody sink' limit) f).1 = some (record', .ok count')) :
    count = count' ∧ record.received = record'.received := by
  have hrun := h.run_eq
  rw [hlimits, hcontent, h'.run_eq, Prod.mk.injEq] at hrun
  have hheader : request.header = request'.header := by
    rw [h.header, h'.header]
    exact congrArg (fun r => RequestHeader.ofSection r.header) hrun.1.symm
  have hbody : request.leftover ++ e.incoming.content =
      request'.leftover ++ f.incoming.content := by
    rw [h.leftover, h'.leftover]
    exact congrArg HeaderReader.buffer hrun.1.symm
  rw [exec_readBody sink limit h.bound] at hok
  rw [exec_readBody sink' limit h'.bound] at hok'
  cases hlength : request'.header.contentLength? with
  | none =>
      rw [hlength] at hok'
      cases hok'
  | some announced =>
      rw [hheader, hlength] at hok
      rw [hlength] at hok'
      obtain ⟨rfl, hreceived⟩ := (delivers_readCapped hsink _ h.bound).eq_of_ok hok
      obtain ⟨rfl, hreceived'⟩ := (delivers_readCapped hsink' _ h'.bound).eq_of_ok hok'
      exact ⟨rfl, by rw [hreceived, hreceived', hbody]⟩

/-- **The body does not depend on how the stream is cut.** Where a header was read, the stream
spells it with a body behind, and a sink that takes bytes receives the first bytes of that body, as
many as are wanted, if they come; what has come, if a read fails before; and nothing at all if the
header does not say how long the body is. Reading the body succeeds exactly if its length is known,
enough of it comes and the sink can be flushed. -/
theorem body_delivered {start e : Exchange ν} {reader : HeaderReader} {request : Request}
    {sink : Sink} (h : HeaderRead start reader request e) (hsink : sink.Takes) (limit : Nat) :
    ∃ t : HeaderText, t.Accepted start.settings.limits ∧ t.bytes = start.incoming.content ∧
      t.Says (reader.extend e.incoming.content) ∧
      (request.header.contentLength? = none →
        exec (readBody sink limit) e = (some ({}, .error .lengthRequired), e)) ∧
      (∀ announced, request.header.contentLength? = some announced →
        Delivers sink (wantedOf announced limit) request t.body e (exec (readBody sink limit) e)) ∧
      ((∃ record count, (exec (readBody sink limit) e).1 = some (record, .ok count)) ↔
        ∃ announced, request.header.contentLength? = some announced ∧
          (∃ chunks last, Reads e chunks last ∧
            wantedOf announced limit ≤ (request.leftover ++ chunks.flatten).length) ∧
          ∀ record result, (exec (readBody sink limit) e).1 = some (record, result) →
            sink.flush record.offers = .ok ()) := by
  obtain ⟨t, haccepted, hbytes, hsaid⟩ := h.exists_text
  have hexec := exec_readBody sink limit h.bound
  have hdelivers (announced : Nat) (hsome : request.header.contentLength? = some announced) :
      Delivers sink (wantedOf announced limit) request t.body e (exec (readBody sink limit) e) := by
    rw [hexec, hsome, h.body_eq hsaid]
    exact delivers_readCapped hsink _ h.bound
  refine ⟨t, haccepted, hbytes, hsaid, fun hnone => ?_, hdelivers, ?_⟩
  · rw [hexec, hnone]
  cases hlength : request.header.contentLength? with
  | none =>
      rw [hexec, hlength]
      simp
  | some announced =>
      rw [(hdelivers announced hlength).ok_iff]
      simp

/-- A request of which header and body arrive in pieces, cut inside the name of a field and inside
the body. -/
def inPieces : Exchange Unit :=
  accept { sessions := { mint := fun _ => "" } } {} none
    { script := ["P / H/1\nContent-Len", "gth: 5\n\nab", "c", "de"].map fun piece =>
        .bytes (Utf8.ofString piece) } {} []

/-- The header comes in two pieces, the second of which holds the first bytes of the body. -/
theorem headerRead_inPieces :
    ∃ reader request e, HeaderRead inPieces reader request e ∧
      request.header.contentLength? = some 5 ∧ request.leftover = Utf8.ofString "ab" ∧
      e.incoming.content = Utf8.ofString "cde" ∧ Undisturbed e := by
  have hfacts :
      (exec readHeader.run inPieces).1.map (fun result => result.toOption.map fun reader =>
        (reader.buffer, (RequestHeader.ofSection reader.header).contentLength?)) =
          some (some (Utf8.ofString "ab", some 5)) ∧
      (exec readHeader.run inPieces).2.incoming =
        { script := [.bytes (Utf8.ofString "c"), .bytes (Utf8.ofString "de")] } ∧
      (exec readHeader.run inPieces).2.isStopped = false ∧
      (exec readHeader.run inPieces).2.cutOff = none := by
    decide +kernel
  rcases hread : exec readHeader.run inPieces with ⟨_ | _ | reader, later⟩
  · rw [hread] at hfacts
    cases hfacts.1
  · rw [hread] at hfacts
    cases hfacts.1
  rw [hread] at hfacts
  obtain ⟨hreader, hincoming, hrunning, huncut⟩ := hfacts
  simp only [Option.map_some, Except.toOption, Option.some.injEq, Prod.mk.injEq] at hreader
  refine ⟨reader, _, _, headerRead_bind hread, hreader.2, hreader.1, ?_, hrunning, huncut, ?_⟩
  · change later.incoming.content = _
    rw [hincoming]
    decide +kernel
  · change later.incoming.OnlyBytes
    rw [hincoming]
    refine List.forall_mem_cons.2 ⟨⟨_, ?_, rfl⟩, List.forall_mem_singleton.2 ⟨_, ?_, rfl⟩⟩
    · decide +kernel
    · decide +kernel

def sipping : Sink where
  accept _ data := .ok (min data.length 2)
  accept_le h := Nat.le_trans (Nat.le_of_eq (Except.ok.inj h).symm) (Nat.min_le_left _ _)

theorem takes_sipping : sipping.Takes := by
  intro offers data hdata
  have hsome := List.length_pos_iff.2 hdata
  exact ⟨min data.length 2, rfl, by omega, Nat.min_le_left _ _⟩

/-- Four of the five bytes are read by a sink that takes two at a time. -/
theorem body_delivered_inPieces :
    ∃ reader request e record, HeaderRead inPieces reader request e ∧ sipping.Takes ∧
      (exec (readBody sipping 4) e).1 = some (record, .ok 4) ∧
      record.received = Utf8.ofString "abcd" := by
  obtain ⟨reader, request, e, h, hlength, hleftover, hcontent, hundisturbed⟩ := headerRead_inPieces
  obtain ⟨chunks, last, hreads, hchunks⟩ := hundisturbed.exists_reads
  obtain ⟨t, _, _, hsaid, _, hdelivers, hiff⟩ := body_delivered h takes_sipping 4
  have hbody : t.body = Utf8.ofString "abcde" := by
    rw [h.body_eq hsaid, hleftover, hcontent]
    decide +kernel
  have henough : wantedOf 5 4 ≤ (request.leftover ++ chunks.flatten).length := by
    rw [hchunks, hleftover, hcontent]
    decide +kernel
  obtain ⟨record, count, hok⟩ :=
    hiff.2 ⟨5, hlength, ⟨chunks, last, hreads, henough⟩, fun _ _ _ => rfl⟩
  refine ⟨reader, request, e, record, h, takes_sipping, ?_⟩
  obtain ⟨rfl, hreceived⟩ := (hdelivers 5 hlength).eq_of_ok hok
  refine ⟨hok, ?_⟩
  rw [hreceived, hbody]
  decide +kernel

/-- A sink that takes everything and cannot be flushed. -/
def unflushable : Sink := { Sink.greedy with flush := fun _ => .error ⟨.other, some "flush"⟩ }

theorem takes_unflushable : unflushable.Takes :=
  fun _ data hdata => ⟨data.length, rfl, List.length_pos_iff.2 hdata, Nat.le_refl _⟩

/-- All that is wanted comes, and reading the body fails nevertheless. -/
theorem flush_fails_inPieces :
    ∃ reader request e, HeaderRead inPieces reader request e ∧ unflushable.Takes ∧
      request.header.contentLength? = some 5 ∧
      (∃ chunks last, Reads e chunks last ∧
        wantedOf 5 0 ≤ (request.leftover ++ chunks.flatten).length) ∧
      ¬ ∃ record count, (exec (readBody unflushable 0) e).1 = some (record, .ok count) := by
  obtain ⟨reader, request, e, h, hlength, hleftover, hcontent, hundisturbed⟩ := headerRead_inPieces
  obtain ⟨chunks, last, hreads, hchunks⟩ := hundisturbed.exists_reads
  refine ⟨reader, request, e, h, takes_unflushable, hlength, ⟨chunks, last, hreads, ?_⟩, ?_⟩
  · rw [hchunks, hleftover, hcontent]
    decide +kernel
  · have hexec := exec_readBody unflushable 0 h.bound
    rw [hlength] at hexec
    rw [hexec]
    rintro ⟨record, count, hok⟩
    have hdelivers := delivers_readCapped takes_unflushable (wantedOf 5 0) h.bound
    cases (hdelivers.ok_iff.1 ⟨record, count, hok⟩).2 record _ hok

end Serving

end HttpServer
