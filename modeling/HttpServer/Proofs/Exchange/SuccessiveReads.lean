import HttpServer.Proofs.Exchange.BodyDelivery

/-!
# Reading a body in several calls

A body can be read in several calls, each of which takes as much as it wants of what is left
(`Remainder.Yields`). What is in hand and not wanted stays for the next call. What a read has
brought beyond what was wanted does not: the next read takes its place, and the bytes are lost. So
the sinks receive the body piece by piece with what was lost left out (`Serving.successive_reads`),
and how much is lost depends on how the stream was cut. Each call goes by the announced length
alone, whatever the calls before it have taken.

Nothing is assumed of the sinks but that the calls went well.
-/

namespace HttpServer

/-- Bytes are poured into a sink without a failure only if it takes all of them. -/
theorem Sink.received_of_fill {s : Sink} {record filled : SinkRecord} {data : Bytes}
    (h : s.fill record data = (filled, .ok ())) : filled.received = record.received ++ data := by
  induction record, data using fill.induct s with
  | case1 record =>
      rw [s.fill_nil record] at h
      cases h
      exact (List.append_nil _).symm
  | case2 record data hdata _ failure hrefused =>
      have hanswer : s.accept record.offers data = .error failure := hrefused
      rw [fill, dif_neg hdata, hanswer] at h
      cases h
  | case3 record data hdata _ hnone =>
      have hanswer : s.accept record.offers data = .ok 0 := hnone
      rw [fill, dif_neg hdata, hanswer] at h
      cases h
  | case4 record data hdata answer offered count haccept ih =>
      have hanswer : s.accept record.offers data = .ok (count + 1) := haccept
      have hoffered : offered = record.add { data, answer := .ok (count + 1) } :=
        congrArg (fun answer => record.add { data, answer }) hanswer
      rw [hoffered] at ih
      rw [fill_of_accept hdata hanswer] at h
      rw [ih h, SinkRecord.received_add, List.append_assoc]
      exact congrArg (record.received ++ ·) (List.take_append_drop (count + 1) data)

/-! ## What is left of a body -/

/-- What is left of a body: the bytes in hand and those that reads can still bring. -/
structure Remainder where
  inHand : Bytes
  toCome : Bytes

namespace Remainder

def bytes (b : Remainder) : Bytes := b.inHand ++ b.toCome

/-- **What a call takes** that wants so many bytes, and what is lost with it. If there are enough
bytes in hand, the others stay there. Otherwise reads are made until there are enough, and what the
last one has brought too much is lost. -/
inductive Yields (wanted : Nat) : Remainder → (received lost : Bytes) → Remainder → Prop
  | fromHand {inHand toCome : Bytes} (henough : wanted ≤ inHand.length) :
      Yields wanted ⟨inHand, toCome⟩ (inHand.take wanted) [] ⟨inHand.drop wanted, toCome⟩
  | fromReads {inHand rest : Bytes} {chunks : List Bytes} (hmissing : inHand.length < wanted)
      (hfrugal : ∀ before, before <+: chunks → before ≠ chunks →
        (inHand ++ before.flatten).length < wanted)
      (henough : wanted ≤ (inHand ++ chunks.flatten).length) :
      Yields wanted ⟨inHand, chunks.flatten ++ rest⟩ ((inHand ++ chunks.flatten).take wanted)
        ((inHand ++ chunks.flatten).drop wanted) ⟨[], rest⟩

variable {wanted : Nat} {b mid : Remainder} {received lost : Bytes}

/-- Nothing is taken out of order. -/
theorem Yields.bytes_eq (h : b.Yields wanted received lost mid) :
    b.bytes = received ++ lost ++ mid.bytes := by
  cases h with
  | @fromHand inHand toCome henough =>
      rw [bytes, bytes, List.append_nil, ← List.append_assoc, List.take_append_drop]
  | @fromReads inHand rest chunks hmissing hfrugal henough =>
      rw [bytes, bytes, List.take_append_drop, List.append_assoc]
      rfl

theorem Yields.length_received (h : b.Yields wanted received lost mid) :
    received.length = wanted := by
  cases h with
  | fromHand henough => rw [List.length_take, Nat.min_eq_left henough]
  | fromReads hmissing hfrugal henough => rw [List.length_take, Nat.min_eq_left henough]

/-- Nothing is lost of what is in hand. -/
theorem Yields.eq_of_enough (h : b.Yields wanted received lost mid)
    (henough : wanted ≤ b.inHand.length) :
    lost = [] ∧ mid.inHand = b.inHand.drop wanted := by
  cases h with
  | fromHand => exact ⟨rfl, rfl⟩
  | fromReads hmissing => exact absurd henough (Nat.not_le.2 hmissing)

end Remainder

/-- The body that can still be read. -/
def Exchange.remainder {ν : Type} (e : Exchange ν) : Remainder where
  inHand := (e.request.map Request.leftover).getD []
  toCome := e.incoming.content

/-- A call that reads a body, with what its sink went through and the count that it returned. -/
structure BodyCall where
  sink : Sink
  limit : Nat
  record : SinkRecord
  count : Nat

/-- What the sinks of several calls have received, one after the other. -/
def receivedBy (calls : List BodyCall) : Bytes := calls.flatMap fun call => call.record.received

/-- How many bytes calls with these limits want of a body of the announced length. -/
def wantedBy (announced : Nat) (limits : List Nat) : Nat :=
  (limits.map (Serving.wantedOf announced)).sum

namespace Serving

variable {ν : Type}

/-! ## One call -/

/-- A read leaves the request alone. -/
theorem request_exec_read (e : Exchange ν) : (exec read.run e).2.request = e.request := by
  have hread := exec_read_bearing e.files e.request e
  change exec read.run e = _ at hread
  rw [hread]
  rfl

theorem incoming_pour {sink : Sink} {record filled : SinkRecord} {data : Bytes}
    {result : Except IoError Unit} {e later : Exchange ν}
    (h : exec (pour sink record data) e = (some (filled, result), later)) :
    sink.fill record data = (filled, result) ∧ later.incoming = e.incoming ∧
      later.request = e.request := by
  cases h
  exact ⟨rfl, rfl, rfl⟩

/-- **Reading on that goes well** takes what it wants from the front of what is to come. -/
theorem exists_of_readOnward {sink : Sink} {rounds wanted : Nat} (hrounds : wanted ≤ rounds)
    {record filled : SinkRecord} {e later : Exchange ν}
    (h : exec (readOnward sink rounds wanted record) e = (some (filled, .ok ()), later)) :
    ∃ chunks : List Bytes, e.incoming.content = chunks.flatten ++ later.incoming.content ∧
      later.request = e.request ∧ wanted ≤ chunks.flatten.length ∧
      (∀ before, before <+: chunks → before ≠ chunks → before.flatten.length < wanted) ∧
      filled.received = record.received ++ chunks.flatten.take wanted := by
  have hdone {record filled : SinkRecord} {e later : Exchange ν}
      (h : exec (pure (record, .ok ()) : Serving ν (SinkRecord × Except BodyError Unit)) e =
        (some (filled, .ok ()), later)) :
      ∃ chunks : List Bytes, e.incoming.content = chunks.flatten ++ later.incoming.content ∧
        later.request = e.request ∧ 0 ≤ chunks.flatten.length ∧
        (∀ before, before <+: chunks → before ≠ chunks → before.flatten.length < 0) ∧
        filled.received = record.received ++ chunks.flatten.take 0 := by
    cases h
    exact ⟨[], rfl, rfl, Nat.zero_le _,
      fun before hprefix hne => absurd (List.prefix_nil.1 hprefix) hne, (List.append_nil _).symm⟩
  induction rounds generalizing wanted record e with
  | zero =>
      cases Nat.le_zero.1 hrounds
      exact hdone h
  | succ rounds ih =>
      obtain rfl | hwanted := Nat.eq_zero_or_pos wanted
      · exact hdone h
      rw [readOnward, if_neg (Nat.ne_of_gt hwanted), exec_bind] at h
      have hkept := request_exec_read e
      rcases hread : exec read.run e with ⟨_ | failure | data, mid⟩
      · rw [hread] at h
        cases h
      · rw [hread] at h
        cases h
      rw [hread] at h hkept
      dsimp only at h
      rw [exec_bind] at h
      rcases hpour : exec (pour sink record (data.take wanted)) mid with
        ⟨_ | ⟨poured, result⟩, between⟩
      · cases hpour
      obtain ⟨hfill, hincoming, hrequest⟩ := incoming_pour hpour
      rw [hpour] at h
      cases result with
      | error failure => cases h
      | ok done =>
          -- A round is spent, and the read has brought at least one byte.
          have hsome : 0 < data.length := List.length_pos_iff.2 (ne_nil_of_exec_read hread)
          obtain ⟨chunks, hcontent, hsame, henough, hfrugal, hreceived⟩ :=
            ih (show wanted - data.length ≤ rounds by omega) h
          refine ⟨data :: chunks, ?_, hsame.trans (hrequest.trans hkept), ?_, ?_, ?_⟩
          · rw [content_of_exec_read hread, ← hincoming, hcontent, List.flatten_cons,
              List.append_assoc]
          · rw [List.flatten_cons, List.length_append]
            omega
          · intro before hprefix hne
            cases before with
            | nil => exact hwanted
            | cons first before =>
                obtain ⟨rfl, hbefore⟩ := List.cons_prefix_cons.1 hprefix
                have hless := hfrugal before hbefore fun heq => hne (heq ▸ rfl)
                rw [List.flatten_cons, List.length_append]
                omega
          · rw [hreceived, Sink.received_of_fill hfill, List.flatten_cons, List.take_append,
              List.append_assoc]

/-- A flush that goes well leaves alone what the sink has received. -/
theorem of_exec_conclude {sink : Sink} {filled record : SinkRecord} {wanted count : Nat}
    {e later : Exchange ν}
    (h : exec (pure ((sink.conclude filled).1,
        ((sink.conclude filled).2.mapError BodyError.sink).map fun _ => wanted) :
        Serving ν (SinkRecord × Except BodyError Nat)) e = (some (record, .ok count), later)) :
    count = wanted ∧ record.received = filled.received ∧ later = e := by
  cases hflush : (sink.conclude filled).2 with
  | error failure =>
      rw [hflush] at h
      cases h
  | ok done =>
      rw [hflush] at h
      cases h
      exact ⟨rfl, rfl, rfl⟩

/-- **A call that goes well** takes what it wants of what is left of the body. -/
theorem yields_of_readCapped {sink : Sink} {wanted count : Nat} {record : SinkRecord}
    {request : Request} {e later : Exchange ν} (hrequest : e.request = some request)
    (h : exec (readCapped sink wanted) e = (some (record, .ok count), later)) :
    count = wanted ∧ later.request = some (request.drained wanted) ∧
      ∃ lost, e.remainder.Yields wanted record.received lost later.remainder := by
  have hleftover : (e.request.map Request.leftover).getD [] = request.leftover := by
    rw [hrequest]
    rfl
  have hdrained : (e.changeRequest fun r => { r with leftover := request.leftover.drop wanted }) =
      e.bearing e.files (some (request.drained wanted)) := by
    rw [Exchange.changeRequest, hrequest]
    rfl
  rw [readCapped, exec_bind, exec_get] at h
  dsimp only at h
  rw [hleftover, exec_bind, exec_modify] at h
  dsimp only at h
  rw [hdrained, exec_bind] at h
  rcases hpour : exec (pour sink {} (request.leftover.take wanted))
    (e.bearing e.files (some (request.drained wanted))) with ⟨_ | ⟨poured, _ | done⟩, between⟩
  · cases hpour
  · rw [hpour] at h
    cases h
  obtain ⟨hfill, hincoming, hsame⟩ := incoming_pour hpour
  rw [hpour] at h
  dsimp only at h
  rw [exec_bind] at h
  rcases honward : exec (readOnward sink (wanted - request.leftover.length)
    (wanted - request.leftover.length) poured) between with ⟨_ | ⟨filled, _ | done⟩, last⟩
  · rw [honward] at h
    cases h
  · rw [honward] at h
    cases h
  obtain ⟨chunks, hcontent, hkept, henough, hfrugal, hreceived⟩ :=
    exists_of_readOnward (Nat.le_refl _) honward
  rw [honward] at h
  obtain ⟨hcount, hrecord, rfl⟩ := of_exec_conclude h
  have hlater : later.request = some (request.drained wanted) := hkept.trans hsame
  have htoCome : e.incoming.content = chunks.flatten ++ later.incoming.content := by
    rw [← hcontent, hincoming]
    rfl
  have hall : record.received = (request.leftover ++ chunks.flatten).take wanted := by
    rw [hrecord, hreceived, Sink.received_of_fill hfill, List.take_append]
    rfl
  have hbefore : e.remainder = ⟨request.leftover, chunks.flatten ++ later.incoming.content⟩ := by
    rw [Exchange.remainder, hleftover, htoCome]
  have hafter : later.remainder = ⟨request.leftover.drop wanted, later.incoming.content⟩ := by
    rw [Exchange.remainder, hlater]
    rfl
  refine ⟨hcount, hlater, ?_⟩
  rw [hall, hbefore, hafter]
  by_cases hinHand : wanted ≤ request.leftover.length
  · -- Nothing was missing, so no read was made.
    have hnone : chunks = [] := by
      by_contra hsome
      have hless := hfrugal [] List.nil_prefix (Ne.symm hsome)
      omega
    subst hnone
    refine ⟨[], ?_⟩
    rw [List.flatten_nil, List.append_nil, List.nil_append]
    exact .fromHand hinHand
  · rw [List.drop_eq_nil_of_le (Nat.le_of_not_le hinHand)]
    refine ⟨_, .fromReads (Nat.lt_of_not_le hinHand) (fun before hprefix hne => ?_) ?_⟩
    · have hless := hfrugal before hprefix hne
      rw [List.length_append]
      omega
    · rw [List.length_append]
      omega

theorem yields_of_readBody {sink : Sink} {limit count : Nat} {record : SinkRecord}
    {request : Request} {e later : Exchange ν} (hrequest : e.request = some request)
    (h : exec (readBody sink limit) e = (some (record, .ok count), later)) :
    ∃ announced, request.header.contentLength? = some announced ∧
      count = wantedOf announced limit ∧
      later.request = some (request.drained (wantedOf announced limit)) ∧
      ∃ lost,
        e.remainder.Yields (wantedOf announced limit) record.received lost later.remainder := by
  rw [exec_readBody sink limit hrequest] at h
  cases hlength : request.header.contentLength? with
  | none =>
      rw [hlength] at h
      cases h
  | some announced =>
      rw [hlength] at h
      exact ⟨announced, rfl, yields_of_readCapped hrequest h⟩

/-! ## Several calls -/

/-- **Calls that went well**, one after the other. -/
inductive ReadBodies : Exchange ν → List BodyCall → Exchange ν → Prop
  | none (e : Exchange ν) : ReadBodies e [] e
  | next {e mid last : Exchange ν} {call : BodyCall} {calls : List BodyCall}
      (hread : exec (readBody call.sink call.limit) e = (some (call.record, .ok call.count), mid))
      (hrest : ReadBodies mid calls last) : ReadBodies e (call :: calls) last

end Serving

/-- **What several calls take** of what is left of a body of the announced length, and what is lost
with each of them. -/
inductive Remainder.Pays (announced : Nat) :
    Remainder → List BodyCall → (losses : List Bytes) → Remainder → Prop
  | none (b : Remainder) : Pays announced b [] [] b
  | next {b mid last : Remainder} {call : BodyCall} {calls : List BodyCall} {lost : Bytes}
      {losses : List Bytes} (hcount : call.count = Serving.wantedOf announced call.limit)
      (hyields : b.Yields call.count call.record.received lost mid)
      (hrest : Pays announced mid calls losses last) :
      Pays announced b (call :: calls) (lost :: losses) last

namespace Remainder

variable {announced : Nat} {b last : Remainder} {calls : List BodyCall} {losses : List Bytes}

/-- The calls go through the body from its front, and leave out nothing but what is lost. -/
theorem Pays.bytes_eq (h : b.Pays announced calls losses last) :
    b.bytes =
      ((calls.zip losses).flatMap fun part => part.1.record.received ++ part.2) ++ last.bytes := by
  induction h with
  | none b => rfl
  | next hcount hyields hrest ih =>
      rw [hyields.bytes_eq, ih, List.zip_cons_cons, List.flatMap_cons]
      exact (List.append_assoc _ _ _).symm

theorem Pays.length_received (h : b.Pays announced calls losses last) :
    ∀ call ∈ calls, call.count = Serving.wantedOf announced call.limit ∧
      call.record.received.length = call.count := by
  induction h with
  | none b => exact nofun
  | next hcount hyields hrest ih =>
      exact List.forall_mem_cons.2 ⟨⟨hcount, hyields.length_received⟩, ih⟩

theorem Pays.length_eq (h : b.Pays announced calls losses last) : losses.length = calls.length := by
  induction h with
  | none b => rfl
  | next hcount hyields hrest ih => exact congrArg (· + 1) ih

theorem Pays.length_receivedBy (h : b.Pays announced calls losses last) :
    (receivedBy calls).length = wantedBy announced (calls.map BodyCall.limit) := by
  induction h with
  | none b => rfl
  | @next b mid last call calls lost losses hcount hyields hrest ih =>
      rw [receivedBy, List.flatMap_cons, List.length_append, hyields.length_received, hcount,
        List.map_cons, wantedBy, List.map_cons, List.sum_cons]
      exact congrArg _ ih

/-- What is lost with the last call is not missed. -/
theorem Pays.isPrefix (h : b.Pays announced calls losses last)
    (hnothing : ∀ lost ∈ losses.dropLast, lost = []) : receivedBy calls <+: b.bytes := by
  induction h with
  | none b => exact List.nil_prefix
  | @next b mid last call calls lost losses hcount hyields hrest ih =>
      rw [hyields.bytes_eq, receivedBy, List.flatMap_cons, List.append_assoc,
        List.prefix_append_right_inj]
      cases hrest with
      | none => exact List.nil_prefix
      | @next _ _ _ _ _ second losses _ _ _ =>
          rw [List.dropLast_cons_cons, List.forall_mem_cons] at hnothing
          rw [hnothing.1]
          exact ih hnothing.2

/-- Nothing is lost if all that is wanted is in hand. -/
theorem Pays.lossless_of_inHand (h : b.Pays announced calls losses last)
    (hinHand : wantedBy announced (calls.map BodyCall.limit) ≤ b.inHand.length) :
    ∀ lost ∈ losses, lost = [] := by
  induction h with
  | none b => exact nofun
  | @next b mid last call calls lost losses hcount hyields hrest ih =>
      rw [List.map_cons, wantedBy, List.map_cons, List.sum_cons, ← hcount] at hinHand
      obtain ⟨hlost, hleft⟩ := hyields.eq_of_enough (by omega)
      rw [List.forall_mem_cons]
      constructor
      · exact hlost
      · apply ih
        rw [hleft, List.length_drop, wantedBy]
        omega

end Remainder

namespace Serving

variable {ν : Type}

theorem pays_of_readBodies {request : Request} {announced : Nat} {e last : Exchange ν}
    {calls : List BodyCall} (hrequest : e.request = some request)
    (hlength : request.header.contentLength? = some announced) (h : ReadBodies e calls last) :
    ∃ losses, e.remainder.Pays announced calls losses last.remainder := by
  induction h generalizing request with
  | none e => exact ⟨[], .none _⟩
  | @next e mid last call calls hread hrest ih =>
      obtain ⟨announced', hsame, hcount, hmid, lost, hyields⟩ := yields_of_readBody hrequest hread
      rw [hlength, Option.some.injEq] at hsame
      subst hsame
      obtain ⟨losses, hpays⟩ := ih hmid hlength
      rw [← hcount] at hyields
      exact ⟨lost :: losses, .next hcount hyields hpays⟩

/-- All texts that the stream spells have the same body. -/
theorem HeaderRead.body_eq_of_accepted {start e : Exchange ν} {reader : HeaderReader}
    {request : Request} (h : HeaderRead start reader request e) {t : HeaderText}
    (haccepted : t.Accepted start.settings.limits) (hbytes : t.bytes = start.incoming.content) :
    t.body = e.remainder.bytes := by
  obtain ⟨final, hfinal, hsaid⟩ := HeaderReader.run_of_text haccepted
  rw [hbytes, h.run_eq] at hfinal
  cases hfinal
  rw [h.body_eq hsaid, Remainder.bytes, Exchange.remainder, h.bound]
  rfl

/-- Nothing is lost before the last of several calls. -/
def Lossless (announced : Nat) (e : Exchange ν) (calls : List BodyCall) (last : Exchange ν) :
    Prop :=
  ∃ losses, e.remainder.Pays announced calls losses last.remainder ∧
    ∀ lost ∈ losses.dropLast, lost = []

/-- **Several calls go through the body once**, from its front. Each of them delivers as much as it
wants by the announced length and its own limit. The body behind the header is what they deliver and
what they lose, piece by piece, and what can still be read. If nothing is lost before the last call,
which is so in particular if all that is wanted was in hand, the sinks receive just the first bytes
of the body, as many as are wanted in all, however the stream was cut; and these are no more than
announced if the calls do not want more. -/
theorem successive_reads {start e last : Exchange ν} {reader : HeaderReader} {request : Request}
    {calls : List BodyCall} (h : HeaderRead start reader request e)
    (hcalls : ReadBodies e calls last) :
    (calls ≠ [] → ∃ announced, request.header.contentLength? = some announced) ∧
      ∀ announced, request.header.contentLength? = some announced →
        (∀ call ∈ calls, call.count = wantedOf announced call.limit ∧
          call.record.received.length = call.count) ∧
        (receivedBy calls).length = wantedBy announced (calls.map BodyCall.limit) ∧
        (∃ losses, losses.length = calls.length ∧
          e.remainder.Pays announced calls losses last.remainder ∧
          ∀ t : HeaderText, t.Accepted start.settings.limits → t.bytes = start.incoming.content →
            t.body = ((calls.zip losses).flatMap fun part => part.1.record.received ++ part.2) ++
              last.remainder.bytes) ∧
        (wantedBy announced (calls.map BodyCall.limit) ≤ request.leftover.length →
          Lossless announced e calls last) ∧
        (Lossless announced e calls last →
          ∀ t : HeaderText, t.Accepted start.settings.limits → t.bytes = start.incoming.content →
            receivedBy calls = t.body.take (wantedBy announced (calls.map BodyCall.limit))) := by
  constructor
  · intro hsome
    cases hcalls with
    | none => exact absurd rfl hsome
    | next hread hrest =>
        obtain ⟨announced, hlength, _⟩ := yields_of_readBody h.bound hread
        exact ⟨announced, hlength⟩
  intro announced hlength
  obtain ⟨losses, hpays⟩ := pays_of_readBodies h.bound hlength hcalls
  refine ⟨hpays.length_received, hpays.length_receivedBy,
    ⟨losses, hpays.length_eq, hpays, ?_⟩, ?_, ?_⟩
  · intro t haccepted hbytes
    rw [h.body_eq_of_accepted haccepted hbytes]
    exact hpays.bytes_eq
  · intro hinHand
    have hleftover : e.remainder.inHand = request.leftover := by
      rw [Exchange.remainder, h.bound]
      rfl
    rw [← hleftover] at hinHand
    exact ⟨losses, hpays, fun lost hlost =>
      hpays.lossless_of_inHand hinHand lost (List.dropLast_subset losses hlost)⟩
  · intro hlossless t haccepted hbytes
    obtain ⟨others, hothers, hnothing⟩ := hlossless
    have hprefix := hothers.isPrefix hnothing
    rw [← h.body_eq_of_accepted haccepted hbytes] at hprefix
    rw [← hpays.length_receivedBy]
    exact List.prefix_iff_eq_take.1 hprefix

/-- A request of which the body arrives in three pieces, the first one with the header. -/
def inThree : Exchange Unit :=
  Exchange.accept { sessions := { mint := fun _ => "" } } {} none
    { script := ["P / H/1\nContent-Length: 8\n\nab", "cdef", "gh"].map fun piece =>
        .bytes (Utf8.ofString piece) } {} []

/-- The exchange of this request once its header is read. -/
def opened : Exchange Unit :=
  match exec readHeader.run inThree with
  | (some (.ok reader), later) => later.bind reader
  | _ => inThree

theorem headerRead_opened :
    ∃ reader request, HeaderRead inThree reader request opened ∧
      request.header.contentLength? = some 8 ∧ request.leftover = Utf8.ofString "ab" := by
  have hfacts : (exec readHeader.run inThree).1.map (fun result => result.toOption.map fun reader =>
      (reader.buffer, (RequestHeader.ofSection reader.header).contentLength?)) =
        some (some (Utf8.ofString "ab", some 8)) := by
    decide +kernel
  rcases hread : exec readHeader.run inThree with ⟨_ | _ | reader, later⟩
  · rw [hread] at hfacts
    cases hfacts
  · rw [hread] at hfacts
    cases hfacts
  rw [hread] at hfacts
  simp only [Option.map_some, Except.toOption, Option.some.injEq, Prod.mk.injEq] at hfacts
  have hopened : opened = later.bind reader := by
    rw [opened, hread]
  rw [hopened]
  exact ⟨reader, _, headerRead_bind hread, hfacts.2, hfacts.1⟩

/-- Two calls with the given limits that go well. -/
theorem exists_two_calls (e : Exchange ν) (first second : Nat) (received received' : Bytes)
    (hfirst : (exec (readBody Sink.greedy first) e).1.map
      (fun result => (result.1.received, result.2.toOption)) = some (received, some first))
    (hsecond : (exec (readBody Sink.greedy second) (exec (readBody Sink.greedy first) e).2).1.map
      (fun result => (result.1.received, result.2.toOption)) = some (received', some second)) :
    ∃ last calls, ReadBodies e calls last ∧ calls.map BodyCall.limit = [first, second] ∧
      receivedBy calls = received ++ received' := by
  rcases hcall : exec (readBody Sink.greedy first) e with ⟨_ | ⟨record, _ | count⟩, mid⟩
  · rw [hcall] at hfirst
    cases hfirst
  · rw [hcall] at hfirst
    cases hfirst
  rw [hcall] at hfirst hsecond
  dsimp only at hsecond
  rcases hnext : exec (readBody Sink.greedy second) mid with ⟨_ | ⟨record', _ | count'⟩, last⟩
  · rw [hnext] at hsecond
    cases hsecond
  · rw [hnext] at hsecond
    cases hsecond
  rw [hnext] at hsecond
  cases hfirst
  cases hsecond
  refine ⟨last, [⟨Sink.greedy, first, record, first⟩, ⟨Sink.greedy, second, record', second⟩],
    .next hcall (.next hnext (.none last)), rfl, ?_⟩
  simp [receivedBy]

/-- Two calls share what came with the header. -/
theorem successive_reads_opened :
    ∃ reader request last calls, HeaderRead inThree reader request opened ∧
      ReadBodies opened calls last ∧ calls.map BodyCall.limit = [1, 1] ∧
      receivedBy calls = Utf8.ofString "ab" ∧
      ∃ t : HeaderText, t.bytes = inThree.incoming.content ∧ receivedBy calls = t.body.take 2 := by
  obtain ⟨reader, request, h, hlength, hleftover⟩ := headerRead_opened
  obtain ⟨last, calls, hcalls, hlimits, hreceived⟩ :=
    exists_two_calls opened 1 1 (Utf8.ofString "a") (Utf8.ofString "b")
      (by decide +kernel) (by decide +kernel)
  obtain ⟨t, haccepted, hbytes, _⟩ := h.exists_text
  obtain ⟨_, hlaws⟩ := successive_reads h hcalls
  obtain ⟨_, _, _, hinHand, hfirst⟩ := hlaws 8 hlength
  rw [hlimits, hleftover] at hinHand
  rw [hlimits] at hfirst
  have hlossless := hinHand (by decide)
  exact ⟨reader, request, last, calls, h, hcalls, hlimits, hreceived, t, hbytes,
    hfirst hlossless t haccepted hbytes⟩

/-- The first call wants one byte of the four that its read brings, and the other three are not seen
again. -/
theorem surplus_lost_opened :
    ∃ reader request last calls, HeaderRead inThree reader request opened ∧
      ReadBodies opened calls last ∧ request.header.contentLength? = some 8 ∧
      calls.map BodyCall.limit = [3, 2] ∧
      ∃ t : HeaderText, t.Accepted inThree.settings.limits ∧ t.bytes = inThree.incoming.content ∧
        t.body = Utf8.ofString "abcdefgh" ∧ receivedBy calls = Utf8.ofString "abcgh" ∧
        ¬ receivedBy calls <+: t.body := by
  obtain ⟨reader, request, h, hlength, _⟩ := headerRead_opened
  obtain ⟨last, calls, hcalls, hlimits, hreceived⟩ :=
    exists_two_calls opened 3 2 (Utf8.ofString "abc") (Utf8.ofString "gh")
      (by decide +kernel) (by decide +kernel)
  obtain ⟨t, haccepted, hbytes, _⟩ := h.exists_text
  have hbody : t.body = Utf8.ofString "abcdefgh" :=
    (h.body_eq_of_accepted haccepted hbytes).trans (by decide +kernel)
  have hparts : receivedBy calls = Utf8.ofString "abcgh" := hreceived.trans (by decide)
  refine ⟨reader, request, last, calls, h, hcalls, hlength, hlimits, t, haccepted, hbytes, hbody,
    hparts, ?_⟩
  rw [hparts, hbody]
  decide

end Serving

end HttpServer
