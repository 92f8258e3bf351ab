import OrionBroker.Query.Entities

/-!
# Which subscriptions an update triggers (MongoCommonUpdate.cpp:768-980)

| here | there |
| --- | --- |
| `servicePathSubscriptionRegex` | `servicePathSubscriptionRegex` (:768) |
| `whereCode`                    | the generated JavaScript (:877-889) |
| `triggerSelector`              | `queryNoPattern`, `queryPattern` and their `$or` (:859-900) |
| `TriggeredSubscription`        | TriggeredSubscription.h |
| `SubsMap`                      | `std::map<string, TriggeredSubscription*>`, ordered by key |
| `addTriggeredSubscriptions`    | `addTriggeredSubscriptions` (:829) |

The JavaScript engine is not modelled. `WhereSpec` says what it is relied on for: when the entity's id and type stand
for themselves in the literals they are pasted into, the generated function compiles and is the loop it spells. An
element whose pattern does not compile makes the loop throw, and the query then finds nothing: the `$err` document is
skipped for want of an `_id` (:944).
-/

namespace OrionBroker

open Mongo

/-! ## The service path -/

/-- `\/` and a component, for each component. -/
def pathText (spathV : List (List Char)) : List Char := spathV.flatMap fun c => '\\' :: '/' :: c

/-- The regex text for the components of the path. -/
def spathRegexOf (spathV : List (List Char)) : List Char :=
  if spathV.length = 0 then "^$|^\\/#$|^\\/$".toList
  else
    "^$|^\\/#$".toList ++
    ((List.range spathV.length).flatMap fun ix =>
      "|^".toList ++ pathText (spathV.take (ix + 1)) ++ "\\/#$".toList) ++
    ("|^".toList ++ pathText spathV ++ ['$'])

def servicePathSubscriptionRegex (servicePath : String) : String :=
  String.ofList (spathRegexOf (if servicePath ≠ "" then stringSplit servicePath.toList '/' else []))

/-! ## The selector -/

/-- The text before the entity's type, between the type and the id, and after the id. -/
def whereBefore : String :=
  "function()" ++
  "\x7b" ++
  "for (var i=0; i < this.entities.length; i++) \x7b" ++
  "if (this.entities[i].isPattern == \"true\" && " ++
  "(this.entities[i].type == \""

def whereBetween : String :=
  "\" || " ++
  "this.entities[i].type == \"\" || " ++
  "!(\"type\" in this.entities[i])) && " ++
  "\""

def whereAfter : String :=
  "\".match(this.entities[i].id)) \x7b" ++
  "return true; " ++
  "\x7d" ++
  "\x7d" ++
  "return false; " ++
  "\x7d"

/-- :877-889. -/
def whereCode (entityId entityType : String) : String :=
  whereBefore ++ entityType ++ whereBetween ++ entityId ++ whereAfter

/-- JavaScript's regular expressions: `none` when the pattern does not compile, else the search. -/
abbrev JsRegex := String → Option (String → Bool)

/-- The test of the loop, on one element. -/
def whereTest (re : JsRegex) (entityId entityType : String) (e : SubEntity) : Option Bool :=
  if e.isPattern == "true" && (e.type == some entityType || e.type == some "" || e.type.isNone) then
    (re e.id).map fun search => search entityId
  else some false

/-- The loop of `whereCode`. -/
def whereLoop (re : JsRegex) (entityId entityType : String) (s : SubDoc) : Option Bool :=
  anyOf (whereTest re entityId entityType) s.entities

/-- A character that stands for itself inside a JavaScript string literal in double quotes. -/
def jsPlainChar (c : Char) : Bool :=
  c != '"' && c != '\\' && c.toNat ≥ 0x20 && c.toNat != 0x2028 && c.toNat != 0x2029

def JsPlain (s : String) : Prop := ∀ c ∈ s.toList, jsPlainChar c = true

instance (s : String) : Decidable (JsPlain s) := List.decidableBAll (fun c => jsPlainChar c = true) s.toList

/-- What the broker relies on of `$where`: the given function is evaluated on the document. -/
structure WhereSpec (E : Engine) (re : JsRegex) : Prop where
  compiles : ∀ entityId entityType, JsPlain entityId → JsPlain entityType →
    E.jsCompiles (whereCode entityId entityType) = true
  eval : ∀ entityId entityType s, JsPlain entityId → JsPlain entityType →
    E.js (whereCode entityId entityType) (SubDoc.toBson s) = whereLoop re entityId entityType s

/-- `{ $in: [ /regex/, null ] }`. -/
def spBson (servicePath : String) : Cond :=
  .isIn [.regex (servicePathSubscriptionRegex servicePath), .null]

def queryNoPattern (entityId entityType attr servicePath : String) (now : Int) : Query :=
  .all [
    .field ["entities", "id"] (.eq (.str entityId)),
    .any [.field ["entities", "type"] (.eq (.str entityType)), .field ["entities", "type"] (.exists false)],
    .field ["entities", "isPattern"] (.eq (.str "false")),
    .field ["conditions", "type"] (.eq (.str "ONCHANGE")),
    .field ["conditions", "value"] (.eq (.str attr)),
    .field ["expiration"] (.gt now),
    .field ["servicePath"] (spBson servicePath)]

def queryPattern (entityId entityType attr servicePath : String) (now : Int) : Query :=
  .all [
    .field ["entities", "isPattern"] (.eq (.str "true")),
    .field ["conditions", "type"] (.eq (.str "ONCHANGE")),
    .field ["conditions", "value"] (.eq (.str attr)),
    .field ["expiration"] (.gt now),
    .field ["servicePath"] (spBson servicePath),
    .js (whereCode entityId entityType)]

def triggerSelector (entityId entityType attr servicePath : String) (now : Int) : Query :=
  .any [queryNoPattern entityId entityType attr servicePath now,
    queryPattern entityId entityType attr servicePath now]

/-! ## The map of triggered subscriptions -/

structure TriggeredSubscription where
  throttling : Int
  lastNotification : Int
  format : Format
  reference : String
  attrL : List String
deriving DecidableEq, Repr

abbrev SubsMap := List (String × TriggeredSubscription)

def SubsMap.keys (m : SubsMap) : List String := m.map Prod.fst

/-- `insert` into the ordered map, when `count(key) == 0`. -/
def SubsMap.insert (m : SubsMap) (p : String × TriggeredSubscription) : SubsMap :=
  if p.1 ∈ m.keys then m else m.orderedInsert (fun a b => a.1 ≤ b.1) p

/-- The fields of the document the map keeps (:962-970). -/
def triggeredSubscription (sub : SubDoc) : TriggeredSubscription where
  throttling := sub.throttling.getD (-1)
  lastNotification := sub.lastNotification.getD (-1)
  format := match sub.format with
    | some f => stringToFormat (cString f)
    | none => .xml
  reference := cString sub.reference
  attrL := sub.attrs

def SubsMap.addAll (m : SubsMap) (found : List SubDoc) : SubsMap :=
  found.foldl (fun m sub => m.insert (sub.oid, triggeredSubscription sub)) m

theorem SubsMap.mem_keys_insert {m : SubsMap} {p : String × TriggeredSubscription} {k : String} :
    k ∈ (m.insert p).keys ↔ k ∈ m.keys ∨ k = p.1 := by
  unfold SubsMap.insert
  split
  · rename_i h
    constructor
    · exact Or.inl
    · rintro (hk | rfl)
      · exact hk
      · exact h
  · simp [SubsMap.keys, List.mem_orderedInsert, or_comm, eq_comm]

/-- The keys after a loop of inserts. -/
theorem SubsMap.mem_keys_foldl {β : Type} (f : β → String × TriggeredSubscription) {k : String} :
    ∀ (found : List β) (m : SubsMap),
      k ∈ (found.foldl (fun m x => m.insert (f x)) m).keys ↔ k ∈ m.keys ∨ ∃ x ∈ found, (f x).1 = k
  | [], m => by simp
  | x :: found, m => by
    rw [List.foldl_cons, SubsMap.mem_keys_foldl f found (m.insert (f x)), SubsMap.mem_keys_insert,
      List.exists_mem_cons_iff, or_assoc, @eq_comm _ k]

theorem SubsMap.mem_keys_addAll {k : String} (found : List SubDoc) (m : SubsMap) :
    k ∈ (m.addAll found).keys ↔ k ∈ m.keys ∨ k ∈ found.map SubDoc.oid := by
  rw [SubsMap.addAll, SubsMap.mem_keys_foldl (fun sub => (sub.oid, triggeredSubscription sub)), List.mem_map]

/-! ## `addTriggeredSubscriptions` -/

/-- The service path the lookup uses (:838). -/
def firstPath (servicePathV : List String) : String := servicePathV.head?.getD ""

def triggeredFind (env : Env) (ctx : Ctx) (entityId entityType attr : String) (w : World) : List SubDoc :=
  w.csubs.found env.engine SubDoc.toBson
    (triggerSelector entityId entityType attr (firstPath ctx.servicePathV) ctx.now)

/-- `err`, or the map with the subscriptions found. -/
def addTriggeredSubscriptions (env : Env) (ctx : Ctx) (entityId entityType attr : String) (subs : SubsMap)
    (w : World) : Except String SubsMap × World :=
  let (o, w') := w.call
  match o.queryError with
  | some what =>
    (.error (queryErrorText env (getSubscribeContextCollectionName env ctx.tenant)
      (triggerSelector entityId entityType attr (firstPath ctx.servicePathV) ctx.now) what), w')
  | none => (.ok (subs.addAll (triggeredFind env ctx entityId entityType attr w)), w')

theorem addTriggeredSubscriptions_same (env : Env) (ctx : Ctx) (entityId entityType attr : String)
    (subs : SubsMap) (w : World) :
    World.Same w (addTriggeredSubscriptions env ctx entityId entityType attr subs w).2 := by
  unfold addTriggeredSubscriptions
  simp only
  split <;> exact w.call_same

end OrionBroker
