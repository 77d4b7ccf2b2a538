import Mailroom.Domain.Basic
import Mailroom.Json.Decode

/-!
Changes to the settings of a domain.  A field that is absent from a change keeps its value; the
fields that may be empty are emptied by an explicit null.
-/

namespace Mailroom

/-- A change: each setting that it sets. -/
structure DomainPatch where
  mode : Option DeliveryMode := none
  redirectTo : Option (Option String) := none
  bccTo : Option (Option String) := none
  dkimSelector : Option (Option String) := none
  dkimEnabled : Option Bool := none
  perMinute : Option Int := none
  perHour : Option Int := none
deriving DecidableEq, Repr, Inhabited

namespace DomainPatch

/-- A field whose null means something else than its absence. -/
def nullable (name : String) : Json.Fields (Option (Option String)) :=
  Json.Fields.field name (fun d => (Json.Decoder.text.orNull d).map some) (some none) (some none)

def fields : Json.Fields DomainPatch :=
  DomainPatch.mk <$> .optional "delivery_mode" .word
    <*> nullable "redirect_to" <*> nullable "bcc_to" <*> nullable "dkim_selector"
    <*> .optional "dkim_enabled" .bool
    <*> .optional "rate_limit_per_minute" .int32
    <*> .optional "rate_limit_per_hour" .int32

def decoder : Json.Decoder DomainPatch := fields.decoder

/-- A member that is left out when the change does not set it. -/
def nullableMember (name : String) : Option (Option String) → List (String × Json)
  | none => []
  | some value => [(name, Json.ofOption value)]

def toJson (p : DomainPatch) : Json :=
  .obj ([("delivery_mode", Json.ofOption (p.mode.map Vocabulary.word))]
    ++ nullableMember "redirect_to" p.redirectTo
    ++ nullableMember "bcc_to" p.bccTo
    ++ nullableMember "dkim_selector" p.dkimSelector
    ++ [("dkim_enabled", (p.dkimEnabled.map Json.bool).getD .null),
        ("rate_limit_per_minute", (p.perMinute.map Json.int).getD .null),
        ("rate_limit_per_hour", (p.perHour.map Json.int).getD .null)])

def apply (p : DomainPatch) (now : Timestamp) (d : Domain) : Domain :=
  Domain.rehashed
    { d with
      mode := (p.mode.map Stored.known).getD d.mode
      redirectTo := p.redirectTo.getD d.redirectTo
      bccTo := p.bccTo.getD d.bccTo
      dkimSelector := p.dkimSelector.getD d.dkimSelector
      dkimEnabled := p.dkimEnabled.getD d.dkimEnabled
      perMinute := p.perMinute.getD d.perMinute
      perHour := p.perHour.getD d.perHour
      updatedAt := now }

end DomainPatch

end Mailroom
