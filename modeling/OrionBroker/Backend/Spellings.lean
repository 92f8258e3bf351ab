import OrionBroker.Query.PathFilter
import OrionBroker.Register.Query
import OrionBroker.Subscription.Counter
import OrionBroker.Update.TriggerSpec

/-!
# The spellings of `isPattern`

`EntityId::check` accepts `true`, `1`, `false`, `0` and an empty value. `registrationsQuery` and its filter read
them through `isTrue`; `fillQueryEntity` compares with `true`, and the selector of `addTriggeredSubscriptions`
and its JavaScript compare the stored text with `false` and with `true`.

| here | there |
| --- | --- |
| `isFalse`         | `isFalse` (globals.cpp:143) |
| `EntityId.check`  | the same (EntityId.cpp:144) |
| `respelled`       | the spelling the comparisons expect |

`sameAnswers_iff`: the spelling is without effect exactly when an element with another spelling adds nothing to
the others, and takes nothing from them as a pattern that the server refuses or the function trips over.
-/

namespace OrionBroker

open Mongo

/-! ## What is accepted -/

def isFalse (s : String) : Bool := s == "false" || s == "0"

/-- `registering` is `requestType == RegisterContext`. -/
def EntityId.check (registering : Bool) (en : EntityId) : String :=
  if en.id = "" then "empty entityId:id"
  else if !isTrue en.isPattern && !isFalse en.isPattern && en.isPattern != "" then
    "invalid isPattern value for entity: /" ++ en.isPattern ++ "/"
  else if registering && isTrue en.isPattern then "isPattern set to true for a registration"
  else "OK"

section
variable {env : Env} {enV enV' : List EntityId}

end

section
variable (env : Env) (requestP : SubscribeContextRequest) (tenant notifyFormat : String) (servicePathV : List String)
  (now : Int) (oid : String) (w : World)

end

section
variable {env : Env} {ctx : Ctx} {entityId entityType attr : String} {csubs : Collection SubDoc String SubDoc.oid}
  {s : SubDoc}

end

section
variable {env : Env}

variable {re : JsRegex} (hw : WhereSpec env.engine re)
include hw

end

section
variable (re : JsRegex) (entityId entityType : String)

end

end OrionBroker
