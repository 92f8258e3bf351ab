import OrionBroker.Update.Steps

/-!
# The document that is read and the documents that may be written

`processContextElement` reads with an anchored regex of the request's path and writes with the bare
escaped path of the document found (MongoCommonUpdate.cpp:1801-1834). The bare path is searched for
anywhere in a stored path, so the write selector of `/a` also takes `/x/a` and `/ab`.
-/

namespace OrionBroker

open Mongo

section
variable (env : Env)

/-- A service path that the request's path covers: the path itself or one below it. `$` lets a final
newline pass. -/
def PathBelow (path q : String) : Prop :=
  q.toList = path.toList ∨ q.toList = path.toList ++ ['\n'] ∨ (path.toList ++ ['/']) <+: q.toList

theorem requestPathRegex_iff {path : String} (h : CanonicalPath path) (q : String) :
    env.engine.regex (requestPathRegex path) q = true ↔ PathBelow path q := by
  have hr := escapedPath_reads h
  have hslash : Regex.Reads "\\/".toList ['/'] := Regex.reads_escaped (by decide)
  have hparse : Regex.parse (requestPathRegex path).toList =
      some [Regex.whole path.toList, Regex.front (path.toList ++ ['/'])] := by
    have h1 := Regex.parse_front (hr.append hslash)
    have e : ('^' :: (escapedPath path ++ "\\/".toList ++ ['.', '*'])) =
        '^' :: (escapedPath path ++ "\\/.*".toList) := by simp
    rw [e] at h1
    rw [requestPathRegex, String.toList_ofList]
    exact Regex.parse_whole_alt hr h1
  rw [env.engine.regex_spec _ _ hparse, Regex.search_cons, Bool.or_eq_true, Regex.search_whole,
    Regex.search_front, or_assoc]
  rfl

theorem escapedPath_iff {path : String} (h : CanonicalPath path) (q : String) :
    env.engine.regex (String.ofList (escapedPath path)) q = true ↔ path.toList <:+: q.toList := by
  rw [env.engine.regex_spec _ _ (by rw [String.toList_ofList]; exact Regex.parse_reads (escapedPath_reads h)),
    Regex.search_lits]

end

/-! ## The selectors as predicates -/

/-- The type a selector built from the stored type asks for: `""` asks for none. -/
def selectedType (key : EntityKey) : Option String :=
  if strField key.type = "" then none else some (strField key.type)

/-- `update()` for the document with `_id` `key` also takes the one with `_id` `other`; of `key` it has what `STR_FIELD`
reads. -/
def Aliased (ctx : Ctx) (key other : EntityKey) : Prop :=
  other.id = cString key.id ∧ other.type = selectedType key ∧
    match ctx.servicePathV with
    | [] => other.servicePath = none
    | _ :: _ => ∃ q, other.servicePath = some q ∧ (strField key.servicePath).toList <:+: q.toList

section
variable {env : Env} {ctx : Ctx} {d : EntityDoc}

theorem selects_all (qs : List Query) :
    env.selects (.all qs) d = true ↔ ∀ q ∈ qs, env.selects q d = true :=
  Query.matches_all_iff env.engine d.toBson qs

theorem selectedType_iff (key : EntityKey) :
    env.selects (if strField key.type = "" then .field ["_id", "type"] (.exists false)
      else .field ["_id", "type"] (.eq (.str (strField key.type)))) d = true ↔
      d.key.type = selectedType key := by
  unfold selectedType Env.selects
  split
  · rw [matches_noType, decide_eq_true_iff]
  · rw [matches_type, decide_eq_true_iff]

/-- A document the read query found has a path exactly when the request has one. -/
theorem found_servicePath {ce : ContextElement} {w : World} {r : EntityDoc}
    (hr : r ∈ foundDocuments env ctx ce w) : ctx.servicePathV = [] ↔ r.key.servicePath = none := by
  have h := (Collection.mem_find.1 hr).2
  rw [readSelector, selects_all] at h
  cases hv : ctx.servicePathV with
  | nil =>
    have hs := h (.field ["_id", "servicePath"] (.exists false)) (by simp [hv])
    rw [Env.selects, matches_noServicePath, decide_eq_true_iff] at hs
    simp [hs]
  | cons path rest =>
    have hs := h (.field ["_id", "servicePath"] (.regex (requestPathRegex path))) (by simp [hv])
    rw [Env.selects, matches_servicePathRegex] at hs
    cases hp : r.key.servicePath with
    | none => rw [hp] at hs; cases hs
    | some q => simp

theorem selects_write_iff {key : EntityKey} (hv : ctx.servicePathV = [] ↔ key.servicePath = none)
    (hc : ∀ p, key.servicePath = some p → CanonicalPath p) :
    env.selects (writeSelector ctx key) d = true ↔ Aliased ctx key d.key := by
  rw [writeSelector, selects_all]
  simp only [List.forall_mem_cons, List.not_mem_nil, IsEmpty.forall_iff, implies_true, and_true]
  rw [selectedType_iff, Env.selects, matches_id, decide_eq_true_iff, Aliased]
  refine and_congr Iff.rfl (and_congr Iff.rfl ?_)
  cases hs : ctx.servicePathV with
  | nil => simp only [Env.selects, matches_noServicePath, decide_eq_true_iff]
  | cons path rest =>
    simp only [Env.selects, matches_servicePathRegex]
    cases hp : key.servicePath with
    | none => rw [hs] at hv; simp [hp] at hv
    | some p =>
      rw [strField_some, (hc p hp).noNul.cString, Option.any_eq_true]
      exact exists_congr fun q => and_congr Iff.rfl (escapedPath_iff env (hc p hp) q)

/-- A document that the update does not pick stays as it is. -/
theorem mem_updateOne_of_ne {c : Collection EntityDoc EntityKey EntityDoc.key} {p : EntityDoc → Bool}
    {pick : Nat} {f : EntityDoc → EntityDoc} {hf : ∀ d, (f d).key = d.key} {key : EntityKey}
    (ht : ∀ x, c.target p pick = some x → x.key = key) {x : EntityDoc} (hx : x ∈ c.docs) (hk : x.key ≠ key) :
    x ∈ (c.updateOne p pick f hf).docs := by
  unfold Collection.updateOne
  cases hd : c.target p pick with
  | none => exact hx
  | some y =>
    have hy := ht y hd
    exact Collection.mem_modify.2 (.inl ⟨hx, by rw [hy]; exact hk⟩)

/-- When the update can only reach `r`, its iteration leaves the other documents as they were. -/
theorem processDocument_keeps_others {ce : ContextElement} {w : World} {r : EntityDoc}
    (ht : ∀ pick x, w.entities.target (env.selects (writeSelector ctx r.key)) pick = some x → x.key = r.key)
    (hdel : updateAction ctx.action = .delete → ce.contextAttributeVector ≠ []) {d : EntityDoc}
    (hd : d ∈ w.entities.docs) (hk : d.key ≠ r.key) :
    d ∈ (processDocument env ctx ce r w).2.2.entities.docs := by
  cases processDocument_step env ctx ce r w with
  | removed ha hv _ _ _ => exact absurd hv (hdel ha)
  | removeFailed _ _ _ hs => rw [hs.entities]; exact hd
  | failed _ _ _ hs => rw [hs.entities]; exact hd
  | unmodified _ _ _ _ hs => rw [hs.entities]; exact hd
  | updateFailed _ _ _ _ hs => rw [hs.entities]; exact hd
  | updated work pick sent _ _ _ he _ _ =>
    rw [he]
    exact mem_updateOne_of_ne (ht pick) hd hk

/-- **Which documents `update()` may modify.** For a document `r` of the read query, with a canonical path
or none, only `r` can be picked exactly when no other document has its id and its type, up to a NUL, and a path that
contains its own; and then an iteration of the document loop leaves every other document as it was,
whatever the outcomes of the calls. -/
theorem update_writes_only_read_iff {ce : ContextElement} {w : World} {r : EntityDoc}
    (hr : r ∈ foundDocuments env ctx ce w) (hc : ∀ p, r.key.servicePath = some p → CanonicalPath p) :
    ((∀ pick d, w.entities.target (env.selects (writeSelector ctx r.key)) pick = some d → d.key = r.key) ↔
      ∀ d ∈ w.entities.docs, Aliased ctx r.key d.key → d.key = r.key) ∧
    ((∀ d ∈ w.entities.docs, Aliased ctx r.key d.key → d.key = r.key) →
      (updateAction ctx.action = .delete → ce.contextAttributeVector ≠ []) →
      ∀ w1 : World, w1.entities = w.entities → ∀ d ∈ w.entities.docs, d.key ≠ r.key →
        d ∈ (processDocument env ctx ce r w1).2.2.entities.docs) := by
  have hsel : ∀ d : EntityDoc, env.selects (writeSelector ctx r.key) d = true ↔ Aliased ctx r.key d.key :=
    fun d => selects_write_iff (found_servicePath hr) hc
  have hiff : (∀ pick d, w.entities.target (env.selects (writeSelector ctx r.key)) pick = some d →
      d.key = r.key) ↔ ∀ d ∈ w.entities.docs, Aliased ctx r.key d.key → d.key = r.key := by
    constructor
    · intro h d hd ha
      obtain ⟨pick, hp⟩ := Collection.exists_target hd ((hsel d).2 ha)
      exact h pick d hp
    · intro h pick d hp
      obtain ⟨hd, hs⟩ := Collection.target_mem hp
      exact h d hd ((hsel d).1 hs)
  refine ⟨hiff, fun hna hdel w1 hw1 d hd hk => ?_⟩
  rw [← hw1] at hd
  exact processDocument_keeps_others (fun pick x hx => hiff.2 hna pick x (by rw [← hw1]; exact hx)) hdel hd hk

end

/-! ## Two entities with one id -/

/-- `Room` of type `T` in `/a` and in `/x/a`, one attribute each. -/
def roomsInTwoPaths : Collection EntityDoc EntityKey EntityDoc.key where
  docs := [
    { key := ⟨"Room", some "T", some "/a"⟩, attrs := [{ name := some "t", value := some (.str "1") }] },
    { key := ⟨"Room", some "T", some "/x/a"⟩, attrs := [{ name := some "t", value := some (.str "2") }] }]
  nodup := by decide

def roomUpdate : ContextElement where
  entityId := { id := "Room", type := "T" }
  contextAttributeVector := [{ name := "t", value := "9" }]

/-- The update of `/a`, alone, leaves no other document. -/
theorem update_writes_only_read_iff_alone :
    ((foundDocuments (Env.plain fun _ _ => false) { action := "UPDATE", servicePathV := ["/a"] } roomUpdate
      { entities := roomsInTwoPaths.remove fun d => d.key.servicePath == some "/x/a" }).map EntityDoc.key =
        [⟨"Room", some "T", some "/a"⟩]) ∧
    ∀ pick d, (roomsInTwoPaths.remove fun d => d.key.servicePath == some "/x/a").target
        ((Env.plain fun _ _ => false).selects
          (writeSelector { action := "UPDATE", servicePathV := ["/a"] } ⟨"Room", some "T", some "/a"⟩)) pick =
          some d → d.key = ⟨"Room", some "T", some "/a"⟩ :=
  ⟨by decide +kernel,
   (@update_writes_only_read_iff (Env.plain fun _ _ => false) { action := "UPDATE", servicePathV := ["/a"] }
    roomUpdate { entities := roomsInTwoPaths.remove fun d => d.key.servicePath == some "/x/a" }
    { key := ⟨"Room", some "T", some "/a"⟩, attrs := [{ name := some "t", value := some (.str "1") }] }
    (by decide +kernel)
    (by
      intro p hp
      cases hp
      exact ⟨⟨["a".toList], by decide, by decide⟩, by decide⟩)).1.2
    (by
      intro d hd _
      have : (roomsInTwoPaths.remove fun d => d.key.servicePath == some "/x/a").docs =
          [{ key := ⟨"Room", some "T", some "/a"⟩,
             attrs := [{ name := some "t", value := some (.str "1") }] }] := by decide +kernel
      rw [this, List.mem_singleton] at hd
      rw [hd])⟩

/-- A NUL in an id: the write is for `Room`, and takes no notice of the document that was read. -/
example : Aliased { action := "UPDATE" } ⟨"Room\x00x", none, none⟩ ⟨"Room", none, none⟩ ∧
    ¬ Aliased { action := "UPDATE" } ⟨"Room\x00x", none, none⟩ ⟨"Room\x00x", none, none⟩ :=
  ⟨⟨by decide, by decide, rfl⟩, fun h => absurd h.1 (by decide)⟩

/-- **A write that lands elsewhere.** An UPDATE in `/a` reads `Room` of `/a` alone, answers 200, and the
server may give the new value to `Room` of `/x/a`. -/
theorem update_in_a_writes_x_a :
    ((foundDocuments (Env.plain fun _ _ => false) { action := "UPDATE", servicePathV := ["/a"] } roomUpdate
        { entities := roomsInTwoPaths }).map EntityDoc.key = [⟨"Room", some "T", some "/a"⟩]) ∧
    (processContextElement (Env.plain fun _ _ => false)
        { action := "UPDATE", servicePathV := ["/a"] } roomUpdate
        { entities := roomsInTwoPaths, picks := [1] }).1.map (List.map fun cer => cer.statusCode.code) =
      some [.ok] ∧
    (processContextElement (Env.plain fun _ _ => false)
        { action := "UPDATE", servicePathV := ["/a"] } roomUpdate
        { entities := roomsInTwoPaths, picks := [1] }).2.entities.docs.map
          (fun d => (d.key.servicePath, d.attrs.map AttrDoc.value)) =
      [(some "/a", [some (.str "1")]), (some "/x/a", [some (.str "9")])] := by
  decide +kernel

end OrionBroker
