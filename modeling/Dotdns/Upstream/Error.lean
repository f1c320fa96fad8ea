import Dotdns.Lib.Except
import Dotdns.Dns

/-!
# Upstream — errors

`UpstreamError`, and the results that travel from an upstream to the
callers. The texts are those the source formats; a text that comes from a
library is whatever that library says.
-/

namespace Dotdns

open Lib

/-- `UpstreamError`. -/
inductive UpstreamError where
  | network (detail : Str)
  | timeout
  | invalidResponse (detail : Str)
  | serialization (detail : Str)
  | allFailed
  | unsupportedFeature (detail : Str)
  deriving DecidableEq, Repr

/-- `PendingResult`: what a query comes to. -/
abbrev PendingResult := Except UpstreamError Message

/-- The DNS library's wire encoder: `Message::to_bytes`, its error as
text. -/
abbrev ToBytes := Message → Except Str (List UInt8)

/-- The DNS library's wire decoder, `Message::from_bytes`. -/
abbrev FromBytes := List UInt8 → Except Str Message

/-- `?` on a `ProtoError`. -/
def UpstreamError.fromProto (e : Str) : UpstreamError := .serialization e

end Dotdns
