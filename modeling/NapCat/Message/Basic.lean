/-
The unified message model of `napcat-message`: recipients, elements and messages, and their JSON
as the derive attributes ask for it (recipients externally tagged in lower case, elements with an
internal `type` tag in snake case).
-/
import NapCat.Lib.Json.Serde

namespace NapCat

open Json

/-- Unified recipient descriptor. -/
inductive MessageRecipient
  | privateUser (userId : String)
  | group (groupId : String)
  deriving DecidableEq, Repr

/-- Message attachment and command elements. -/
inductive MessageElement
  | text (text : String)
  | image (path : String) (size : Option UInt64)
  | video (path : String) (durationMs : Option UInt64)
  | file (path : String) (md5 : Option String)
  | atUser (targetUser : String)
  | reply (messageId : String)
  | json (payload : Json)

/-- Message envelope used by all protocol and API layers. -/
structure Message where
  id : String
  senderId : String
  recipient : MessageRecipient
  elements : List MessageElement

namespace Message

/-- `Message::text`: a message of one text element. -/
def ofText (id sender : String) (recipient : MessageRecipient) (text : String) : Message :=
  { id := id, senderId := sender, recipient := recipient, elements := [.text text] }

end Message

/-! ## Serialization -/

def optionJson {α : Type} (f : α → Json) : Option α → Json
  | some a => f a
  | none => .null

def MessageRecipient.toJson : MessageRecipient → Json
  | .privateUser u => .obj [("private", .obj [("user_id", .str u)])]
  | .group g => .obj [("group", .obj [("group_id", .str g)])]

def MessageElement.toJson : MessageElement → Json
  | .text t => .obj [("type", .str "text"), ("text", .str t)]
  | .image p size => .obj [("type", .str "image"), ("path", .str p),
      ("size", optionJson (fun n => ofNat n.toNat) size)]
  | .video p d => .obj [("type", .str "video"), ("path", .str p),
      ("duration_ms", optionJson (fun n => ofNat n.toNat) d)]
  | .file p md5 => .obj [("type", .str "file"), ("path", .str p), ("md5", optionJson .str md5)]
  | .atUser u => .obj [("type", .str "at"), ("target_user", .str u)]
  | .reply m => .obj [("type", .str "reply"), ("message_id", .str m)]
  | .json p => .obj [("type", .str "json"), ("payload", p)]

def Message.toJson (m : Message) : Json :=
  .obj [("id", .str m.id), ("sender_id", .str m.senderId), ("recipient", m.recipient.toJson),
    ("elements", .arr (m.elements.map MessageElement.toJson))]

/-! ## Deserialization -/

/-- A struct variant with one string field. -/
def oneString {α : Type} (name : String) (f : String → α) (j : Json) : Except Error α := do
  match ← structFields [name] j with
  | [x] => return f (← required name asString x)
  | _ => .error .invalidLength

/-- A struct variant with a `path` and one optional field. -/
def pathAnd {α β : Type} (name : String) (g : Json → Except Error β) (f : String → Option β → α) (j : Json) :
    Except Error α := do
  match ← structFields ["path", name] j with
  | [p, x] => return f (← required "path" asString p) (← optional g x)
  | _ => .error .invalidLength

def MessageRecipient.decode (place : Place) (j : Json) : Except Error MessageRecipient := do
  match ← variant j with
  | ("private", some c) => oneString "user_id" .privateUser (← place.content c)
  | ("group", some c) => oneString "group_id" .group (← place.content c)
  | ("private", none) | ("group", none) => .error .invalidType
  | (v, _) => .error (.unknownVariant v)

/-- The variant of an element by its tag, from the fields other than the tag. -/
def MessageElement.ofTagged (tag : String) (content : Json) : Except Error MessageElement :=
  match tag with
  | "text" => oneString "text" .text content
  | "image" => pathAnd "size" asU64 .image content
  | "video" => pathAnd "duration_ms" asU64 .video content
  | "file" => pathAnd "md5" asString .file content
  | "at" => oneString "target_user" .atUser content
  | "reply" => oneString "message_id" .reply content
  | "json" => do
    match ← structFields ["payload"] content with
    | [x] => return .json (← required "payload" asValue x)
    | _ => .error .invalidLength
  | v => .error (.unknownVariant v)

/-- The tag of an element is its `type` field, or the first item of an array. -/
def MessageElement.ofContent : Json → Except Error MessageElement
  | .obj fs => do
    let tag ← required "type" asString (← fieldNamed fs "type")
    ofTagged tag (.obj (fs.filter fun f => f.1 ≠ "type"))
  | .arr (t :: xs) => do ofTagged (← asString t) (.arr xs)
  | .arr [] => .error (.missingField "type")
  | _ => .error .invalidType

/-- An internally tagged element. -/
def MessageElement.decode (place : Place) : Json → Except Error MessageElement := buffered place ofContent

def Message.decode (place : Place) (j : Json) : Except Error Message := do
  match ← structFields ["id", "sender_id", "recipient", "elements"] j with
  | [i, s, r, e] =>
    return {
      id := ← required "id" asString i
      senderId := ← required "sender_id" asString s
      recipient := ← required "recipient" (MessageRecipient.decode place) r
      elements := ← required "elements" (asVec (MessageElement.decode (place.inside 2))) e }
  | _ => .error .invalidLength

/-- A text that is a message. -/
def Message.ofJson : Json → Except Error Message := decode (.text 0)

/-- Message error type: serialization failed. -/
inductive MessageError
  | serialization (error : Json.Error)
  deriving DecidableEq, Repr

def MessageError.text : MessageError → String
  | .serialization e => "serialization failed: " ++ e.text

def encodeJson (message : Message) : String := message.toJson.toText

def decodeJson (text : String) : Except MessageError Message :=
  (fromText Message.ofJson text).mapError .serialization

end NapCat
