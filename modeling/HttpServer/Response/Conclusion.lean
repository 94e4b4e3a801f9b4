/-!
# Conclusion of a response

A response is over when its header goes out or when its connection dies. Everyone who might finish
it looks at the same `Conclusion`; only the first to conclude it is told so, and neither mark is
ever taken back.
-/

namespace HttpServer

/-- Whether a response is over. -/
structure Conclusion where
  /-- The connection behind the response has not been stopped. -/
  alive : Bool := true
  /-- Someone has concluded the response. -/
  claimed : Bool := false
  deriving DecidableEq

namespace Conclusion

def hasConcluded (c : Conclusion) : Bool := c.claimed || !c.alive

/-- Concludes the response; true for the first one to do so. -/
def conclude (c : Conclusion) : Conclusion × Bool := ({ c with claimed := true }, !c.claimed)

def die (c : Conclusion) : Conclusion := { c with alive := false }

end Conclusion

end HttpServer
