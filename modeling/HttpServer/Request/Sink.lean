import HttpServer.Error

/-!
# Sinks of request bodies

A sink is offered bytes and says how many of them it takes, never more than there are, or fails. Its
answer may depend on all that it was offered before, so a sink is a function of its record. Bytes
that it did not take are offered again until all are taken (`Sink.fill`); a sink that takes none of
them has failed too.
-/

namespace HttpServer

/-- Bytes that a sink was offered, and how many of them it took. -/
structure Offer where
  data : Bytes
  answer : Except IoError Nat

def Offer.taken (o : Offer) : Bytes :=
  match o.answer with
  | .ok count => o.data.take count
  | .error _ => []

/-- What a sink has been through. -/
structure SinkRecord where
  offers : List Offer := []
  /-- How often the sink was asked to flush. -/
  flushes : Nat := 0

namespace SinkRecord

def received (r : SinkRecord) : Bytes := r.offers.flatMap Offer.taken

def add (r : SinkRecord) (offer : Offer) : SinkRecord := { r with offers := r.offers ++ [offer] }

end SinkRecord

/-- A destination of body bytes. -/
structure Sink where
  /-- The answer to an offer, in view of the earlier ones. -/
  accept : List Offer → Bytes → Except IoError Nat
  /-- The outcome of a flush, in view of the offers before it. -/
  flush : List Offer → Except IoError Unit := fun _ => .ok ()
  /-- The file that the taken bytes go to, if they go to one. -/
  file : Option (List String) := none
  /-- No sink takes more than it is offered: whoever wrote it would be cut off in the middle of an
  answer that claims so. -/
  accept_le : ∀ {offers data count}, accept offers data = .ok count → count ≤ data.length := by
    grind

namespace Sink

/-- A sink that takes everything. -/
def greedy : Sink where
  accept _ data := .ok data.length
  accept_le h := Nat.le_of_eq (Except.ok.inj h).symm

/-- A sink that took nothing of what it was offered. -/
def tookNothing : IoError := ⟨.writeZero, none⟩

/-- Offers bytes until all of them are taken. -/
def fill (s : Sink) (record : SinkRecord) (data : Bytes) : SinkRecord × Except IoError Unit :=
  if _h : data = [] then (record, .ok ())
  else
    let answer := s.accept record.offers data
    let record := record.add { data, answer }
    match answer with
    | .error e => (record, .error e)
    | .ok 0 => (record, .error tookNothing)
    | .ok (count + 1) => s.fill record (data.drop (count + 1))
termination_by data.length
decreasing_by
  have := List.length_pos_iff.2 _h
  simp only [List.length_drop]
  omega

def conclude (s : Sink) (record : SinkRecord) : SinkRecord × Except IoError Unit :=
  ({ record with flushes := record.flushes + 1 }, s.flush record.offers)

end Sink

end HttpServer
