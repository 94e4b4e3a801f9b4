import HttpServer.Stream.Encoded

/-!
# Feeding a body while it is sent

An application feeds the body of a chunked response from other tasks: a `Source` is the producer
they feed, directly or through a codec, and a `Feed` is one thing they do to it. The callbacks of
the producer serve three purposes (`FeedTag`): to wake the writer, to tell the application how
production ended, and to tell it that a write failed.
-/

namespace HttpServer

/-- What a callback of a fed producer is for. -/
inductive FeedTag
  | wake | outcome | fault
  deriving DecidableEq

/-- One thing that an application does while its body is sent. -/
inductive Feed
  | push (data : Bytes)
  | finish
  /-- Makes the writer look again. -/
  | flush
  | endProduction (failure : Option IoError)
  /-- Takes the connection out of the registry. -/
  | unregister
  deriving DecidableEq

/-- The producer that an application feeds. -/
inductive Source
  | plain (producer : Producer FeedTag)
  | encoded (producer : EncodedProducer (Encoder Unit) FeedTag)

namespace Source

/-- A producer of bytes that are sent as they are, with the name of their coding if they have
one. -/
def ofEncoding (encoding : String) : Source :=
  .plain { encoding, onFinish := some .outcome, onError := some .fault }

/-- A producer that encodes what it is given. The compressor here leaves the bytes as they are. -/
def ofCoding (name : String) : Source :=
  let producer := EncodedProducer.new Compressor.identity.codec name
  .encoded { producer with
    queue := { producer.queue with onFinish := some .outcome, onError := some .fault } }

/-- The queue between application and writer. -/
def queue : Source → Producer FeedTag
  | .plain producer => producer
  | .encoded producer => producer.queue

/-- The queue's produce callback wakes the writer from now on. -/
def connect : Source → Source
  | .plain producer => .plain { producer with onProduce := some .wake }
  | .encoded producer =>
    .encoded { producer with queue := { producer.queue with onProduce := some .wake } }

/-- Does one thing to the producer: the callbacks that ran, and whether it went well. -/
def feed (s : Source) (f : Feed) : Source × List (Signal FeedTag) × Except IoError Unit :=
  match s, f with
  | .plain p, .push data => let (p, signals) := p.push data; (.plain p, signals, .ok ())
  | .plain p, .finish => let (p, signals) := p.finish; (.plain p, signals, .ok ())
  | .plain p, .flush => let (p, signals) := p.flush; (.plain p, signals, .ok ())
  | .plain p, .endProduction failure =>
    let (p, signals) := p.endProduction failure
    (.plain p, signals, .ok ())
  | .encoded p, .push data => let (p, result) := p.write data; (.encoded p, result)
  | .encoded p, .finish => let (p, result) := p.finish; (.encoded p, result)
  | .encoded p, .endProduction failure =>
    let (p, signals) := p.endProduction failure
    (.encoded p, signals, .ok ())
  | .encoded p, .flush => (.encoded p, [], .ok ())
  | s, .unregister => (s, [], .ok ())

/-- The writer has taken bytes. -/
def consume (s : Source) (amount : Nat) : Source × List (Signal FeedTag) :=
  match s with
  | .plain p => let (p, signals) := p.consume amount; (.plain p, signals)
  | .encoded p => let (p, signals) := p.consume amount; (.encoded p, signals)

def endProduction (s : Source) (failure : Option IoError) : Source × List (Signal FeedTag) :=
  match s with
  | .plain p => let (p, signals) := p.endProduction failure; (.plain p, signals)
  | .encoded p => let (p, signals) := p.endProduction failure; (.encoded p, signals)

end Source

end HttpServer
