import Mailroom.Buckets
import Mailroom.Json.Writer
import Mailroom.Text.Dictionary
import Mailroom.Timestamp
import Mailroom.Uuid

/-!
What is sent to whom: templates, campaigns with their variants, and recipients.
-/

namespace Mailroom

/-- A stored message text with placeholders. -/
structure Template where
  id : Uuid
  name : String
  subject : String
  html : Option String
  text : Option String
  createdAt : Timestamp
  updatedAt : Timestamp
deriving DecidableEq, Repr, Inhabited

/-- A message to everyone on a list, with its content or a template for it. -/
structure Campaign where
  id : Uuid
  name : String
  sender : String
  replyTo : Option String
  templateId : Option Uuid
  subject : Option String
  html : Option String
  text : Option String
  values : Json
  listId : Uuid
  createdAt : Timestamp
  updatedAt : Timestamp
deriving Inhabited

/-- Other content for a share of a campaign's recipients. -/
structure Variant where
  id : Uuid
  campaignId : Uuid
  name : String
  weight : Int
  templateId : Option Uuid
  subject : Option String
  html : Option String
  text : Option String
deriving DecidableEq, Repr, Inhabited

structure Recipient where
  id : Uuid
  listId : Uuid
  email : String
  name : Option String
  values : Json
  createdAt : Timestamp
deriving Inhabited

/-- The text that a member of a variables object stands for: a string as it is, nothing for null,
and the compact text of any other value. -/
def Json.variableText : Json → String
  | .str s => s
  | .null => ""
  | other => other.render

/-- The variables that an object holds; any other value holds none. -/
def Json.toDictionary : Json → Dictionary
  | .obj members => Dictionary.ofList (members.map fun (name, value) => (name, value.variableText))
  | _ => .empty

/-- The variant for the item at a place: the buckets are as wide as the weights, and the places go
round through all of them; none if no variant has a weight. -/
def Variant.pick (variants : List Variant) (place : Nat) : Option Uuid :=
  let widths := variants.map fun v => v.weight.toNat
  (bucketOf widths (place % totalWidth widths)).bind fun i => (variants[i]?).map Variant.id

end Mailroom
