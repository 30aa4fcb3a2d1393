import Courier.Envelope.Form
import Courier.Envelope.Reading
import Courier.Error

/-!
# Envelopes

A codec turns messages into payloads and back. The plain one writes the JSON form.
-/

namespace Courier

structure Codec where
  encode : Message → Except CodecError Bytes
  decode : Bytes → Except CodecError Message

namespace Envelope

/-- How deep the arrays and objects of an envelope may nest. -/
def greatestDepth : Nat := 127

def encode (m : Message) : Bytes :=
  m.form.bytes

def decode (data : Bytes) : Except CodecError Message :=
  if data.isEmpty then .error (.malformed "empty payload")
  else
    match (Json.Tree.ofBytes? data).bind (message greatestDepth) with
    | some m => .ok m
    | none => .error .invalidJson

end Envelope

namespace Codec

def json : Codec where
  encode m := .ok (Envelope.encode m)
  decode := Envelope.decode

def bodyTag (b : Body) : String :=
  match b with
  | .text _ => "text"
  | .command c => c.tag

/-- The codec that will not encode bodies with the given tags. -/
def refusing (codec : Codec) (tags : List String) : Codec where
  encode m :=
    if tags.contains (bodyTag m.content.body) then
      .error (.malformed ("refused " ++ bodyTag m.content.body))
    else codec.encode m
  decode := codec.decode

end Codec

end Courier
