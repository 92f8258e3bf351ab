import OrionBroker.Store.World

/-!
# Merging the duplicates of the default service path (scripts/managedb/merge_default_sp_dups.py)

Entities under the service path "/" may have a duplicate without a service path, from an older release. The script
pushes the attributes that only the duplicate has to the document under "/", and removes the duplicate.

| here | there |
| --- | --- |
| `duplicatedAttrName` | `duplicated_attr_name` (:47) |
| `hasAttr`            | `has_attr` (:58) |
| `isAttrInDocOlder`   | `is_attr_in_doc_older` (:64) |
| `sanity`             | the checks before the attributes are looked at (:115-138) |
| `attrsToPush`        | the loop over the attributes of the duplicate (:141-152) |
| `pushAndRemove`      | the update and the removal (:154-182) |
| `mergeDoc`           | an iteration of the loop of `merge_sp` |
| `mergeSp`            | `merge_sp` (:93) |

An exception that is not caught ends the script, with the database as it is then. The cursor is the list of what it
finds at the start; the loop changes only the document at hand and its duplicate. The lines printed are left out.

`mergeSp_iff`: when every pair is looked at and ends as it was or well merged.
-/

namespace OrionBroker.MergeDefaultSp

open Mongo

/-! ## The script -/

/-- The exceptions that end the script. -/
inductive PyError where
  | keyError (key : String)
  | typeError (what : String)
  | overflowError
  | pymongo (what : String)
deriving DecidableEq, Repr

/-- With `names` as collected so far. The loop goes on after a duplicate. -/
def duplicatedAttrName (names : List String) : List AttrDoc → Except PyError Bool
  | [] => .ok false
  | attr :: list =>
    match attr.name with
    | none => .error (.keyError "name")
    | some name =>
      if name ∈ names then (duplicatedAttrName names list).map fun _ => true
      else duplicatedAttrName (name :: names) list

/-- The names are there: `duplicatedAttrName` has read them. -/
def hasAttr (attr : AttrDoc) (docAttrs : List AttrDoc) : Bool := docAttrs.any fun a => a.name == attr.name

/-- The date of the attribute that is called `attr`, or 0. `attr` is the attribute itself, a dictionary, and a name
is compared with it. -/
def modDateOf (attr : AttrDoc) (attrs : List AttrDoc) : Int :=
  attrs.foldl (fun date a => if a.name.map Bson.str = some attr.toBson then a.modDate.getD 0 else date) 0

def isAttrInDocOlder (attr : AttrDoc) (doc dup : EntityDoc) : Bool :=
  decide (modDateOf attr doc.attrs < modDateOf attr dup.attrs)

/-- `timedelta(seconds=delta)` takes less than this: a thousand million days. -/
def timedeltaLimit : Int := 86400 * 10 ^ 9

/-- Whether to go on with the pair. The message for a newer duplicate has two places and gets three values. -/
def sanity (doc dup : EntityDoc) : Except PyError Bool :=
  match doc.modDate, dup.modDate with
  | some modDate, some dupModDate =>
    let delta := modDate - dupModDate
    if delta < 0 then .error (.typeError "not all arguments converted during string formatting")
    else if timedeltaLimit ≤ delta then .error .overflowError
    else
      match duplicatedAttrName [] doc.attrs with
      | .error e => .error e
      | .ok true => .ok false
      | .ok false => (duplicatedAttrName [] dup.attrs).map fun duplicated => !duplicated
  | _, _ => .error (.keyError "modDate")

/-- The attributes to push, and how often the loop warns about an older one: its `continue` is that of this loop. -/
def attrsToPush (doc dup : EntityDoc) : List AttrDoc → List AttrDoc × Nat
  | [] => ([], 0)
  | attr :: attrs =>
    let (push, older) := attrsToPush doc dup attrs
    if !hasAttr attr doc.attrs then (attr :: push, older)
    else if isAttrInDocOlder attr doc dup then (push, older + 1)
    else (push, older)

/-- `pairs` are the pairs that `n_dup` counts. -/
structure Merge where
  world : World
  n : Nat := 0
  pairs : List (EntityKey × EntityKey) := []
  skipped : Nat := 0
  needFix : Bool := false

def Merge.skip (s : Merge) : Merge := { s with skipped := s.skipped + 1, needFix := true }

/-- A selector on the three parts of `_id`; `None` matches a missing one. -/
def selects (id : String) (type servicePath : Option String) (d : EntityDoc) : Bool :=
  decide (d.key = ⟨id, type, servicePath⟩)

/-- The type in the selectors: an empty one is as good as none. -/
def selectedType (doc : EntityDoc) : Option String := if doc.key.type = some "" then none else doc.key.type

def push (attrs : List AttrDoc) (d : EntityDoc) : EntityDoc := { d with attrs := d.attrs ++ attrs }

def pushTo (doc : EntityDoc) (attrs : List AttrDoc) (w : World) : World :=
  let (pick, w) := w.pick
  let entities := w.entities.updateOne (selects doc.key.id (selectedType doc) (some "/")) pick (push attrs) fun _ => rfl
  { w with entities := entities }

def removeDup (doc : EntityDoc) (s : Merge) : Merge :=
  let (o, w) := s.world.call
  match o.writeError with
  | some _ => { s with world := w, needFix := true }
  | none => { s with world := { w with entities := w.entities.remove (selects doc.key.id (selectedType doc) none) } }

def pushAndRemove (doc : EntityDoc) (attrs : List AttrDoc) (s : Merge) : Merge :=
  if attrs.length > 0 then
    let (o, w) := s.world.call
    match o.writeError with
    | some _ => { s with world := w, needFix := true }
    | none => removeDup doc { s with world := pushTo doc attrs w }
  else removeDup doc s

def mergePair (doc dup : EntityDoc) (s : Merge) : Option PyError × Merge :=
  match sanity doc dup with
  | .error e => (some e, s)
  | .ok false => (none, s.skip)
  | .ok true =>
    let (attrs, older) := attrsToPush doc dup dup.attrs
    (none, pushAndRemove doc attrs { s with skipped := s.skipped + older, needFix := s.needFix || decide (0 < older) })

def mergeDoc (doc : EntityDoc) (s : Merge) : Option PyError × Merge :=
  let (o, w) := s.world.call
  let s := { s with n := s.n + 1, world := w }
  match o.queryError with
  | some what => (some (.pymongo what), s)
  | none =>
    match w.entities.docs.find? (selects doc.key.id (selectedType doc) none) with
    | none => (none, s)
    | some dup => mergePair doc dup { s with pairs := s.pairs ++ [(doc.key, dup.key)] }

def mergeLoop : List EntityDoc → Merge → Option PyError × Merge
  | [], s => (none, s)
  | doc :: docs, s =>
    match mergeDoc doc s with
    | (some e, s) => (some e, s)
    | (none, s) => mergeLoop docs s

def underRoot (d : EntityDoc) : Bool := decide (d.key.servicePath = some "/")

def mergeSp (w : World) : Option PyError × Merge :=
  let (o, w) := w.call
  match o.queryError with
  | some what => (some (.pymongo what), { world := w })
  | none => mergeLoop (w.entities.find underRoot) { world := w }

/-! ## What should hold -/

def pathless (k : EntityKey) : EntityKey := { k with servicePath := none }

/-- A document under "/" and its duplicate. -/
def IsPair (doc dup : EntityDoc) : Prop := underRoot doc = true ∧ dup.key = pathless doc.key

/-- Both have a date, and the first one is the earlier. -/
def Older (a b : AttrDoc) : Prop := ∃ date ∈ a.modDate, ∃ other ∈ b.modDate, date < other

instance (a b : AttrDoc) : Decidable (Older a b) :=
  decidable_of_iff ((a.modDate.any fun date => b.modDate.any fun other => decide (date < other)) = true) (by
    unfold Older
    cases a.modDate <;> cases b.modDate <;> simp)

/-- The duplicate is gone; the document has every name of both, and for a name in both the newer attribute. -/
structure Merged (doc dup : EntityDoc) (docs : List EntityDoc) : Prop where
  gone : ∀ d ∈ docs, d.key ≠ dup.key
  newest : ∃ d ∈ docs, d.key = doc.key ∧ (∀ a ∈ doc.attrs ++ dup.attrs, ∃ b ∈ d.attrs, b.name = a.name) ∧
    ∀ b ∈ d.attrs, b ∈ doc.attrs ++ dup.attrs ∧ ∀ a ∈ doc.attrs ++ dup.attrs, a.name = b.name → ¬ Older b a

/-- Both are as they were, or the pair is merged. -/
def Settled (doc dup : EntityDoc) (docs : List EntityDoc) : Prop := (doc ∈ docs ∧ dup ∈ docs) ∨ Merged doc dup docs

/-! ## When it does -/

def Named (attrs : List AttrDoc) : Prop := ∀ a ∈ attrs, a.name ≠ none

def Distinct (attrs : List AttrDoc) : Prop := (attrs.map AttrDoc.name).Nodup

instance (attrs : List AttrDoc) : Decidable (Named attrs) := inferInstanceAs (Decidable (∀ a ∈ attrs, _))

instance (attrs : List AttrDoc) : Decidable (Distinct attrs) := inferInstanceAs (Decidable (List.Nodup _))

/-- The script survives the pair: both are dated, the duplicate not later and not too long before, and the attributes
that are looked at have names. -/
def Passes (doc dup : EntityDoc) : Prop :=
  ∃ date ∈ doc.modDate, ∃ dupDate ∈ dup.modDate, dupDate ≤ date ∧ date - dupDate < timedeltaLimit ∧
    Named doc.attrs ∧ (Distinct doc.attrs → Named dup.attrs)

/-- Neither is skipped for a name that it has twice. -/
def Merges (doc dup : EntityDoc) : Prop := Passes doc dup ∧ Distinct doc.attrs ∧ Distinct dup.attrs

/-- An attribute of the document is older than that of the duplicate. -/
def Stale (doc dup : EntityDoc) : Prop := ∃ b ∈ doc.attrs, ∃ a ∈ dup.attrs, a.name = b.name ∧ Older b a

instance (doc dup : EntityDoc) : Decidable (Stale doc dup) :=
  inferInstanceAs (Decidable (∃ b ∈ doc.attrs, ∃ a ∈ dup.attrs, _))

/-! ## The checks -/

/-- The names are not among those collected, and pairwise different. -/
def Unseen (names : List String) (attrs : List AttrDoc) : Prop :=
  Distinct attrs ∧ ∀ a ∈ attrs, ∀ name ∈ names, a.name ≠ some name

theorem unseen_cons {names : List String} {attr : AttrDoc} {attrs : List AttrDoc} {name : String}
    (hattr : attr.name = some name) (hname : name ∉ names) :
    Unseen names (attr :: attrs) ↔ Unseen (name :: names) attrs := by
  unfold Unseen Distinct
  rw [List.map_cons, List.nodup_cons, hattr]
  constructor
  · rintro ⟨⟨hfresh, hnodup⟩, hall⟩
    refine ⟨hnodup, fun a ha n hn => ?_⟩
    rcases List.mem_cons.1 hn with rfl | hn
    · intro he
      exact hfresh (he ▸ List.mem_map_of_mem ha)
    · exact hall a (List.mem_cons_of_mem attr ha) n hn
  · rintro ⟨hnodup, hall⟩
    refine ⟨⟨fun hmem => ?_, hnodup⟩, fun a ha n hn => ?_⟩
    · obtain ⟨a, ha, he⟩ := List.mem_map.1 hmem
      exact hall a ha name List.mem_cons_self he
    · rcases List.mem_cons.1 ha with rfl | ha
      · intro he
        rw [hattr] at he
        cases he
        exact hname hn
      · exact hall a ha n (List.mem_cons_of_mem name hn)

/-- A duplicate is found exactly when there is one; a missing name ends the script. -/
theorem duplicatedAttrName_spec (attrs : List AttrDoc) : ∀ names : List String,
    (Named attrs → ∃ duplicated, duplicatedAttrName names attrs = .ok duplicated ∧
      (duplicated = false ↔ Unseen names attrs)) ∧
    (¬ Named attrs → ∃ e, duplicatedAttrName names attrs = .error e) := by
  induction attrs with
  | nil =>
    intro names
    have hnone : ∀ {P : AttrDoc → Prop}, ∀ a ∈ ([] : List AttrDoc), P a := fun a ha => absurd ha List.not_mem_nil
    exact ⟨fun _ => ⟨false, rfl, fun _ => ⟨List.nodup_nil, hnone⟩, fun _ => rfl⟩, fun h => absurd hnone h⟩
  | cons attr attrs ih =>
    intro names
    cases hattr : attr.name with
    | none =>
      refine ⟨fun h => absurd hattr (h attr List.mem_cons_self), fun _ => ⟨.keyError "name", ?_⟩⟩
      rw [duplicatedAttrName, hattr]
    | some name =>
      have hnamed : Named (attr :: attrs) ↔ Named attrs := by
        unfold Named
        rw [List.forall_mem_cons, hattr]
        exact ⟨fun h => h.2, fun h => ⟨nofun, h⟩⟩
      rw [hnamed, duplicatedAttrName, hattr]
      dsimp only
      by_cases hname : name ∈ names
      · rw [if_pos hname]
        obtain ⟨hok, herror⟩ := ih names
        refine ⟨fun h => ?_, fun h => ?_⟩
        · obtain ⟨duplicated, he, _⟩ := hok h
          rw [he]
          refine ⟨true, rfl, fun ht => Bool.noConfusion ht, fun hu => ?_⟩
          exact absurd hattr (hu.2 attr List.mem_cons_self name hname)
        · obtain ⟨e, he⟩ := herror h
          rw [he]
          exact ⟨e, rfl⟩
      · rw [if_neg hname, unseen_cons hattr hname]
        exact ih (name :: names)

theorem duplicatedAttrName_nil {attrs : List AttrDoc} (h : Named attrs) :
    duplicatedAttrName [] attrs = .ok (!decide (Distinct attrs)) := by
  obtain ⟨duplicated, he, hiff⟩ := (duplicatedAttrName_spec attrs []).1 h
  have hunseen : Unseen [] attrs ↔ Distinct attrs := ⟨fun hu => hu.1, fun hd => ⟨hd, fun _ _ _ hn => absurd hn List.not_mem_nil⟩⟩
  rw [hunseen] at hiff
  rw [he]
  by_cases hd : Distinct attrs
  · rw [hiff.2 hd, decide_eq_true hd]
    rfl
  · cases duplicated with
    | false => exact absurd (hiff.1 rfl) hd
    | true => rw [decide_eq_false hd]; rfl

/-- One spec for the checks. -/
theorem sanity_spec (doc dup : EntityDoc) :
    (Passes doc dup → sanity doc dup = .ok (decide (Distinct doc.attrs ∧ Distinct dup.attrs))) ∧
    (¬ Passes doc dup → ∃ e, sanity doc dup = .error e) := by
  unfold sanity Passes
  cases hdoc : doc.modDate with
  | none => exact ⟨fun ⟨_, h, _⟩ => absurd h nofun, fun _ => ⟨_, rfl⟩⟩
  | some date =>
    cases hdup : dup.modDate with
    | none => exact ⟨fun ⟨_, _, _, h, _⟩ => absurd h nofun, fun _ => ⟨_, rfl⟩⟩
    | some dupDate =>
      simp only [Option.mem_def, Option.some.injEq, exists_eq_left']
      by_cases hneg : date - dupDate < 0
      · rw [if_pos hneg]
        exact ⟨fun h => by omega, fun _ => ⟨_, rfl⟩⟩
      by_cases hlimit : timedeltaLimit ≤ date - dupDate
      · rw [if_neg hneg, if_pos hlimit]
        exact ⟨fun h => by omega, fun _ => ⟨_, rfl⟩⟩
      rw [if_neg hneg, if_neg hlimit]
      by_cases hn : Named doc.attrs
      · rw [duplicatedAttrName_nil hn]
        by_cases hd : Distinct doc.attrs
        · rw [decide_eq_true hd]
          by_cases hn' : Named dup.attrs
          · rw [duplicatedAttrName_nil hn']
            refine ⟨fun _ => ?_, fun h => absurd ⟨by omega, by omega, hn, fun _ => hn'⟩ h⟩
            by_cases hd' : Distinct dup.attrs
            · rw [decide_eq_true hd', decide_eq_true (And.intro hd hd')]
              rfl
            · rw [decide_eq_false hd', decide_eq_false fun h : _ ∧ _ => hd' h.2]
              rfl
          · obtain ⟨e, he⟩ := (duplicatedAttrName_spec dup.attrs []).2 hn'
            rw [he]
            exact ⟨fun h => absurd (h.2.2.2 hd) hn', fun _ => ⟨e, rfl⟩⟩
        · rw [decide_eq_false hd, decide_eq_false fun h : _ ∧ _ => hd h.1]
          refine ⟨fun _ => rfl, fun h => absurd ⟨by omega, by omega, hn, fun hyes => absurd hyes hd⟩ h⟩
      · obtain ⟨e, he⟩ := (duplicatedAttrName_spec doc.attrs []).2 hn
        rw [he]
        exact ⟨fun h => absurd h.2.2.1 hn, fun _ => ⟨e, rfl⟩⟩

/-- A name is a string and an attribute a dictionary. -/
theorem isAttrInDocOlder_false (attr : AttrDoc) (doc dup : EntityDoc) : isAttrInDocOlder attr doc dup = false := by
  have hzero : ∀ attrs : List AttrDoc, modDateOf attr attrs = 0 := by
    intro attrs
    unfold modDateOf
    induction attrs with
    | nil => rfl
    | cons a attrs ih =>
      have hne : ¬ a.name.map Bson.str = some attr.toBson := by
        cases a.name with
        | none => exact nofun
        | some name => exact fun h => by cases h
      rw [List.foldl_cons, if_neg hne]
      exact ih
  unfold isAttrInDocOlder
  rw [hzero, hzero]
  rfl

/-- No attribute is found to be older, so all those that the document lacks are pushed and nothing is skipped. -/
theorem attrsToPush_eq (doc dup : EntityDoc) (attrs : List AttrDoc) :
    attrsToPush doc dup attrs = (attrs.filter fun a => !hasAttr a doc.attrs, 0) := by
  induction attrs with
  | nil => rfl
  | cons attr attrs ih =>
    rw [attrsToPush, ih, isAttrInDocOlder_false]
    dsimp only
    cases hhas : hasAttr attr doc.attrs with
    | false => rw [List.filter_cons_of_pos (by rw [hhas]; rfl)]; rfl
    | true => rw [List.filter_cons_of_neg (by rw [hhas]; exact Bool.false_ne_true)]; rfl

/-! ## One document -/

/-- The document with the attributes that only the duplicate has. -/
def merged (doc dup : EntityDoc) : EntityDoc := push (dup.attrs.filter fun a => !hasAttr a doc.attrs) doc

theorem hasAttr_iff {attr : AttrDoc} {attrs : List AttrDoc} :
    hasAttr attr attrs = true ↔ ∃ a ∈ attrs, a.name = attr.name := by
  unfold hasAttr
  simp only [List.any_eq_true, beq_iff_eq]

/-- Two attributes of one name are the same. -/
theorem Distinct.eq {attrs : List AttrDoc} (h : Distinct attrs) {a b : AttrDoc} (ha : a ∈ attrs) (hb : b ∈ attrs)
    (he : a.name = b.name) : a = b := List.inj_on_of_nodup_map h ha hb he

theorem not_older_self (a : AttrDoc) : ¬ Older a a := by
  rintro ⟨date, hdate, other, hother, hlt⟩
  rw [Option.mem_def.1 hdate] at hother
  cases hother
  omega

/-- **What the script makes of a pair is right unless an attribute is stale**: then the older one stays. -/
theorem merged_iff {doc dup : EntityDoc} (hdoc : Distinct doc.attrs) (hdup : Distinct dup.attrs)
    {docs : List EntityDoc} (hmem : merged doc dup ∈ docs) (honly : ∀ d ∈ docs, d.key = doc.key → d = merged doc dup)
    (hgone : ∀ d ∈ docs, d.key ≠ dup.key) : Settled doc dup docs ↔ ¬ Stale doc dup := by
  have hattrs : (merged doc dup).attrs = doc.attrs ++ dup.attrs.filter fun a => !hasAttr a doc.attrs := rfl
  constructor
  · rintro (⟨_, hd⟩ | hm)
    · exact absurd rfl (hgone dup hd)
    · rintro ⟨b, hb, a, ha, hname, hold⟩
      obtain ⟨d, hd, hkey, _, hnewest⟩ := hm.newest
      rw [honly d hd hkey, hattrs] at hnewest
      exact (hnewest b (List.mem_append_left _ hb)).2 a (List.mem_append_right _ ha) hname hold
  · intro hstale
    refine .inr ⟨hgone, merged doc dup, hmem, rfl, fun a ha => ?_, fun b hb => ?_⟩
    · rw [hattrs]
      rcases List.mem_append.1 ha with ha | ha
      · exact ⟨a, List.mem_append_left _ ha, rfl⟩
      · by_cases hhas : hasAttr a doc.attrs = true
        · obtain ⟨b, hb, he⟩ := hasAttr_iff.1 hhas
          exact ⟨b, List.mem_append_left _ hb, he⟩
        · refine ⟨a, List.mem_append_right _ (List.mem_filter.2 ⟨ha, ?_⟩), rfl⟩
          simpa using hhas
    · rw [hattrs] at hb
      rcases List.mem_append.1 hb with hb | hb
      · refine ⟨List.mem_append_left _ hb, fun a ha hname hold => ?_⟩
        rcases List.mem_append.1 ha with ha | ha
        · rw [hdoc.eq ha hb hname] at hold
          exact not_older_self b hold
        · exact hstale ⟨b, hb, a, ha, hname, hold⟩
      · obtain ⟨hb, hnot⟩ := List.mem_filter.1 hb
        have hnot : ¬ hasAttr b doc.attrs = true := by simpa using hnot
        refine ⟨List.mem_append_right _ hb, fun a ha hname hold => ?_⟩
        rcases List.mem_append.1 ha with ha | ha
        · exact hnot (hasAttr_iff.2 ⟨a, ha, hname⟩)
        · rw [hdup.eq ha hb hname] at hold
          exact not_older_self b hold

section
variable {doc : EntityDoc} (hroot : underRoot doc = true) (htype : doc.key.type ≠ some "")
include htype

theorem selects_dup (d : EntityDoc) : selects doc.key.id (selectedType doc) none d = decide (d.key = pathless doc.key) := by
  unfold selects selectedType
  rw [if_neg htype]
  rfl

/-- The removal takes the duplicate away. -/
theorem removeDup_sure {s : Merge} (hsure : s.world.Sure) :
    (removeDup doc s).world.Sure ∧ (removeDup doc s).pairs = s.pairs ∧
    ∀ x, x ∈ (removeDup doc s).world.entities.docs ↔ x ∈ s.world.entities.docs ∧ x.key ≠ pathless doc.key := by
  unfold removeDup
  rw [hsure.call]
  refine ⟨hsure, rfl, fun x => ?_⟩
  show x ∈ s.world.entities.docs.filter _ ↔ _
  rw [List.mem_filter, selects_dup htype]
  simp

include hroot

theorem selects_doc (d : EntityDoc) :
    selects doc.key.id (selectedType doc) (some "/") d = decide (d.key = doc.key) := by
  have hpath : doc.key.servicePath = some "/" := of_decide_eq_true hroot
  unfold selects selectedType
  rw [if_neg htype, ← hpath]

/-- The update adds to the document. -/
theorem pushTo_sure {w : World} (hsure : w.Sure) (hdoc : doc ∈ w.entities.docs) (attrs : List AttrDoc) :
    (pushTo doc attrs w).Sure ∧
    ∀ x, x ∈ (pushTo doc attrs w).entities.docs ↔ (x ∈ w.entities.docs ∧ x.key ≠ doc.key) ∨ x = push attrs doc := by
  have hw := w.pick_same
  refine ⟨hsure.pick, fun x => ?_⟩
  show x ∈ (w.pick.2.entities.updateOne _ w.pick.1 (push attrs) fun _ => rfl).docs ↔ _
  rw [hw.entities]
  unfold Collection.updateOne
  have hfind : doc ∈ w.entities.find (selects doc.key.id (selectedType doc) (some "/")) :=
    Collection.mem_find.2 ⟨hdoc, by rw [selects_doc hroot htype]; exact decide_eq_true rfl⟩
  cases ht : w.entities.target (selects doc.key.id (selectedType doc) (some "/")) w.pick.1 with
  | none =>
    rw [Collection.target_eq_none.1 ht] at hfind
    cases hfind
  | some d =>
    obtain ⟨hd, hp⟩ := Collection.target_mem ht
    rw [selects_doc hroot htype] at hp
    have hkey : d.key = doc.key := of_decide_eq_true hp
    dsimp only
    refine (@Collection.mem_modify _ _ _ _ w.entities d.key (push attrs) (fun _ => rfl) x).trans ?_
    rw [hkey]
    refine or_congr_right ⟨?_, fun hx => ⟨doc, hdoc, rfl, hx⟩⟩
    rintro ⟨e, he, hek, rfl⟩
    rw [w.entities.eq_of_key he hdoc hek]

/-- Both together. -/
theorem pushAndRemove_sure {s : Merge} (hsure : s.world.Sure) (hdoc : doc ∈ s.world.entities.docs)
    (attrs : List AttrDoc) :
    (pushAndRemove doc attrs s).world.Sure ∧ (pushAndRemove doc attrs s).pairs = s.pairs ∧
    ∀ x, x ∈ (pushAndRemove doc attrs s).world.entities.docs ↔
      (x ∈ s.world.entities.docs ∧ x.key ≠ doc.key ∧ x.key ≠ pathless doc.key) ∨ x = push attrs doc := by
  have hne : doc.key ≠ pathless doc.key := by
    intro he
    have hpath : doc.key.servicePath = some "/" := of_decide_eq_true hroot
    have hnone : doc.key.servicePath = none := congrArg EntityKey.servicePath he
    rw [hnone] at hpath
    cases hpath
  unfold pushAndRemove
  by_cases hlen : attrs.length > 0
  · rw [if_pos hlen, hsure.call]
    obtain ⟨hs1, hdocs1⟩ := pushTo_sure hroot htype hsure hdoc attrs
    obtain ⟨hs2, hpairs2, hdocs2⟩ := @removeDup_sure doc htype { s with world := pushTo doc attrs s.world } hs1
    refine ⟨hs2, hpairs2, fun x => (hdocs2 x).trans ?_⟩
    rw [show x ∈ (pushTo doc attrs s.world).entities.docs ↔ _ from hdocs1 x]
    constructor
    · rintro ⟨⟨hx, hk⟩ | rfl, hk'⟩
      · exact .inl ⟨hx, hk, hk'⟩
      · exact .inr rfl
    · rintro (⟨hx, hk, hk'⟩ | rfl)
      · exact ⟨.inl ⟨hx, hk⟩, hk'⟩
      · exact ⟨.inr rfl, hne⟩
  · have hnil : attrs = [] := List.length_eq_zero_iff.1 (by omega)
    subst hnil
    have hpush : push [] doc = doc := by unfold push; rw [List.append_nil]
    rw [if_neg hlen, hpush]
    obtain ⟨hs, hpairs, hdocs⟩ := removeDup_sure htype hsure
    refine ⟨hs, hpairs, fun x => (hdocs x).trans ?_⟩
    constructor
    · rintro ⟨hx, hk'⟩
      by_cases hk : x.key = doc.key
      · exact .inr (s.world.entities.eq_of_key hx hdoc hk)
      · exact .inl ⟨hx, hk, hk'⟩
    · rintro (⟨hx, _, hk'⟩ | rfl)
      · exact ⟨hx, hk'⟩
      · exact ⟨hdoc, hne⟩

end

/-- The duplicate that the script finds. -/
def dupOf (docs : List EntityDoc) (doc : EntityDoc) : Option EntityDoc := docs.find? fun d => decide (d.key = pathless doc.key)

theorem dupOf_eq_some_iff {c : Collection EntityDoc EntityKey EntityDoc.key} {doc dup : EntityDoc} :
    dupOf c.docs doc = some dup ↔ dup ∈ c.docs ∧ dup.key = pathless doc.key := by
  unfold dupOf
  constructor
  · intro h
    have hkey := List.find?_some h
    exact ⟨List.mem_of_find?_eq_some h, by simpa using hkey⟩
  · rintro ⟨hmem, hkey⟩
    cases hf : c.docs.find? fun d => decide (d.key = pathless doc.key) with
    | none =>
      have hno := List.find?_eq_none.1 hf dup hmem
      simp [hkey] at hno
    | some d =>
      have hd : d.key = pathless doc.key := by simpa using List.find?_some hf
      rw [c.eq_of_key (List.mem_of_find?_eq_some hf) hmem (hd.trans hkey.symm)]

/-- Everything an iteration can do, when no call fails. -/
inductive MergeStep (doc : EntityDoc) (s : Merge) : Option PyError × Merge → Prop where
  | single {s' : Merge} (none : dupOf s.world.entities.docs doc = none) (world : s'.world = s.world)
      (pairs : s'.pairs = s.pairs) : MergeStep doc s (.none, s')
  | ended {s' : Merge} (e : PyError) (dup : EntityDoc) (found : dupOf s.world.entities.docs doc = some dup)
      (fails : ¬ Passes doc dup) (world : s'.world = s.world) (pairs : s'.pairs = s.pairs ++ [(doc.key, dup.key)]) :
      MergeStep doc s (some e, s')
  | skipped {s' : Merge} (dup : EntityDoc) (found : dupOf s.world.entities.docs doc = some dup)
      (passes : Passes doc dup) (twice : ¬ (Distinct doc.attrs ∧ Distinct dup.attrs)) (world : s'.world = s.world)
      (pairs : s'.pairs = s.pairs ++ [(doc.key, dup.key)]) : MergeStep doc s (none, s')
  | merged {s' : Merge} (dup : EntityDoc) (found : dupOf s.world.entities.docs doc = some dup) (merges : Merges doc dup)
      (sure : s'.world.Sure) (pairs : s'.pairs = s.pairs ++ [(doc.key, dup.key)])
      (docs : ∀ x, x ∈ s'.world.entities.docs ↔
        (x ∈ s.world.entities.docs ∧ x.key ≠ doc.key ∧ x.key ≠ dup.key) ∨ x = merged doc dup) :
      MergeStep doc s (none, s')

theorem mergeDoc_step {doc : EntityDoc} {s : Merge} (hsure : s.world.Sure) (hdoc : doc ∈ s.world.entities.docs)
    (hroot : underRoot doc = true) (htype : doc.key.type ≠ some "") : MergeStep doc s (mergeDoc doc s) := by
  have hdup : s.world.entities.docs.find? (selects doc.key.id (selectedType doc) none) =
      dupOf s.world.entities.docs doc := by
    unfold dupOf
    congr 1
    funext d
    exact selects_dup htype d
  unfold mergeDoc
  rw [hsure.call]
  dsimp only [Outcome.queryError]
  rw [hdup]
  cases hfound : dupOf s.world.entities.docs doc with
  | none => exact .single hfound rfl rfl
  | some dup =>
    dsimp only
    unfold mergePair
    obtain ⟨hpass, hfail⟩ := sanity_spec doc dup
    by_cases hp : Passes doc dup
    · rw [hpass hp]
      by_cases hd : Distinct doc.attrs ∧ Distinct dup.attrs
      · rw [decide_eq_true hd, attrsToPush_eq]
        obtain ⟨hs, hpairs, hdocs⟩ := pushAndRemove_sure (s := { s with
          n := s.n + 1, pairs := s.pairs ++ [(doc.key, dup.key)], skipped := s.skipped + 0,
          needFix := s.needFix || decide (0 < 0) }) hroot htype hsure hdoc (dup.attrs.filter fun a => !hasAttr a doc.attrs)
        rw [← (dupOf_eq_some_iff.1 hfound).2] at hdocs
        exact .merged dup hfound ⟨hp, hd⟩ hs hpairs hdocs
      · rw [decide_eq_false hd]
        exact .skipped dup hfound hp hd rfl rfl
    · obtain ⟨e, he⟩ := hfail hp
      rw [he]
      exact .ended e dup hfound hp rfl rfl

/-! ## The loop -/

section
variable {docs : List EntityDoc} {s : Merge}

/-- What the loop finds at its start. -/
structure Ready (docs : List EntityDoc) (s : Merge) : Prop where
  sure : s.world.Sure
  mem : ∀ d ∈ docs, d ∈ s.world.entities.docs
  root : ∀ d ∈ docs, underRoot d = true
  typed : ∀ d ∈ docs, d.key.type ≠ some ""
  nodup : (docs.map EntityDoc.key).Nodup

/-- The document and its duplicate are not among those still to come. -/
def Apart (k : EntityKey) (docs : List EntityDoc) : Prop := ∀ d ∈ docs, k ≠ d.key ∧ k ≠ pathless d.key

theorem pathless_inj {d e : EntityDoc} (hd : underRoot d = true) (he : underRoot e = true)
    (h : pathless d.key = pathless e.key) : d.key = e.key := by
  have hdp : d.key.servicePath = some "/" := of_decide_eq_true hd
  have hep : e.key.servicePath = some "/" := of_decide_eq_true he
  have hid : (pathless d.key).id = (pathless e.key).id := congrArg EntityKey.id h
  have htype : (pathless d.key).type = (pathless e.key).type := congrArg EntityKey.type h
  cases hk : d.key with
  | mk id type servicePath =>
    cases hk' : e.key with
    | mk id' type' servicePath' =>
      simp only [hk, hk', pathless] at hdp hep hid htype
      rw [hdp, hep, hid, htype]

/-- A key without a path is not one under "/". -/
theorem pathless_ne {k : EntityKey} {d : EntityDoc} (hd : underRoot d = true) : pathless k ≠ d.key := by
  intro h
  have hdp : d.key.servicePath = some "/" := of_decide_eq_true hd
  rw [← h] at hdp
  cases hdp

theorem Ready.apart {doc : EntityDoc} (h : Ready (doc :: docs) s) :
    Apart doc.key docs ∧ Apart (pathless doc.key) docs := by
  have hdoc := h.root doc List.mem_cons_self
  have hfresh := (List.nodup_cons.1 (List.map_cons ▸ h.nodup)).1
  have hne : ∀ d ∈ docs, doc.key ≠ d.key := fun d hd he => hfresh (he ▸ List.mem_map_of_mem hd)
  refine ⟨fun d hd => ⟨hne d hd, (pathless_ne hdoc).symm⟩, fun d hd => ?_⟩
  have hroot := h.root d (List.mem_cons_of_mem doc hd)
  exact ⟨pathless_ne hroot, fun he => hne d hd (pathless_inj hdoc hroot he)⟩

/-- The rest of the loop starts in order again. -/
theorem Ready.step {doc : EntityDoc} {s' : Merge} (h : Ready (doc :: docs) s) (hstep : MergeStep doc s (none, s')) :
    Ready docs s' ∧ ∀ x : EntityDoc, x.key ≠ doc.key → x.key ≠ pathless doc.key →
      (x ∈ s'.world.entities.docs ↔ x ∈ s.world.entities.docs) := by
  have hmem : ∀ d ∈ docs, d ∈ s.world.entities.docs := fun d hd => h.mem d (List.mem_cons_of_mem doc hd)
  have hroot : ∀ d ∈ docs, underRoot d = true := fun d hd => h.root d (List.mem_cons_of_mem doc hd)
  have htyped : ∀ d ∈ docs, d.key.type ≠ some "" := fun d hd => h.typed d (List.mem_cons_of_mem doc hd)
  have hnodup := (List.nodup_cons.1 (List.map_cons ▸ h.nodup)).2
  have hsame : s'.world = s.world → Ready docs s' ∧ ∀ x : EntityDoc, x.key ≠ doc.key → x.key ≠ pathless doc.key →
      (x ∈ s'.world.entities.docs ↔ x ∈ s.world.entities.docs) := by
    intro hw
    rw [hw]
    refine ⟨⟨?_, ?_, hroot, htyped, hnodup⟩, fun x _ _ => Iff.rfl⟩
    · rw [hw]; exact h.sure
    · rw [hw]; exact hmem
  cases hstep with
  | single _ hw _ => exact hsame hw
  | skipped _ _ _ _ hw _ => exact hsame hw
  | merged dup hfound _ hsure _ hdocs =>
    rw [(dupOf_eq_some_iff.1 hfound).2] at hdocs
    have hother : ∀ x : EntityDoc, x.key ≠ doc.key → x.key ≠ pathless doc.key →
        (x ∈ s'.world.entities.docs ↔ x ∈ s.world.entities.docs) := by
      intro x hk hk'
      rw [hdocs]
      constructor
      · rintro (⟨hx, _⟩ | rfl)
        · exact hx
        · exact absurd rfl hk
      · exact fun hx => .inl ⟨hx, hk, hk'⟩
    refine ⟨⟨hsure, fun d hd => ?_, hroot, htyped, hnodup⟩, hother⟩
    exact (hother d (h.apart.1 d hd).1.symm (pathless_ne (hroot d hd)).symm).2 (hmem d hd)

/-- The loop leaves alone what is neither one of its documents nor a duplicate of one. -/
theorem mergeLoop_frame (docs : List EntityDoc) : ∀ {s : Merge}, Ready docs s →
    (∀ x : EntityDoc, Apart x.key docs →
      (x ∈ (mergeLoop docs s).2.world.entities.docs ↔ x ∈ s.world.entities.docs)) ∧
    (∀ p ∈ s.pairs, p ∈ (mergeLoop docs s).2.pairs) ∧
    ∀ p ∈ (mergeLoop docs s).2.pairs, p ∈ s.pairs ∨ ∃ d ∈ docs, p.1 = d.key := by
  induction docs with
  | nil => exact fun _ => ⟨fun _ _ => Iff.rfl, fun _ hp => hp, fun _ hp => .inl hp⟩
  | cons doc docs ih =>
    intro s h
    have hstep := mergeDoc_step h.sure (h.mem doc List.mem_cons_self) (h.root doc List.mem_cons_self)
      (h.typed doc List.mem_cons_self)
    rw [mergeLoop]
    generalize mergeDoc doc s = r at hstep
    have hpairs : ∀ p ∈ r.2.pairs, p ∈ s.pairs ∨ p.1 = doc.key := by
      have hadd : ∀ {dup : EntityDoc}, r.2.pairs = s.pairs ++ [(doc.key, dup.key)] →
          ∀ p ∈ r.2.pairs, p ∈ s.pairs ∨ p.1 = doc.key := by
        intro dup he p hp
        rw [he] at hp
        rcases List.mem_append.1 hp with hp | hp
        · exact .inl hp
        · rw [List.mem_singleton.1 hp]
          exact .inr rfl
      cases hstep with
      | single _ _ he => exact fun p hp => .inl (he ▸ hp)
      | ended _ _ _ _ _ he => exact hadd he
      | skipped _ _ _ _ _ he => exact hadd he
      | merged _ _ _ _ he _ => exact hadd he
    have hkeep : ∀ p ∈ s.pairs, p ∈ r.2.pairs := by
      have hadd : ∀ {dup : EntityDoc}, r.2.pairs = s.pairs ++ [(doc.key, dup.key)] → ∀ p ∈ s.pairs, p ∈ r.2.pairs :=
        fun he p hp => by rw [he]; exact List.mem_append_left _ hp
      cases hstep with
      | single _ _ he => exact fun p hp => by rw [he]; exact hp
      | ended _ _ _ _ _ he => exact hadd he
      | skipped _ _ _ _ _ he => exact hadd he
      | merged _ _ _ _ he _ => exact hadd he
    obtain ⟨error, s'⟩ := r
    cases error with
    | some e =>
      have hw : s'.world = s.world := by
        cases hstep with
        | ended _ _ _ _ hw _ => exact hw
      refine ⟨fun x _ => by dsimp only; rw [hw], hkeep, fun p hp => ?_⟩
      exact (hpairs p hp).imp_right fun hk => ⟨doc, List.mem_cons_self, hk⟩
    | none =>
      obtain ⟨hready, hother⟩ := h.step hstep
      obtain ⟨hframe, hkeep', hpairs'⟩ := ih hready
      refine ⟨fun x hx => ?_, fun p hp => hkeep' p (hkeep p hp), fun p hp => ?_⟩
      · have hdoc := hx doc List.mem_cons_self
        exact (hframe x fun d hd => hx d (List.mem_cons_of_mem doc hd)).trans (hother x hdoc.1 hdoc.2)
      · rcases hpairs' p hp with hp | ⟨d, hd, hk⟩
        · exact (hpairs p hp).imp_right fun hk => ⟨doc, List.mem_cons_self, hk⟩
        · exact .inr ⟨d, List.mem_cons_of_mem doc hd, hk⟩

/-- The pairs in the order of the loop. -/
def pairsOf (docs all : List EntityDoc) : List (EntityDoc × EntityDoc) :=
  docs.filterMap fun doc => (dupOf all doc).map fun dup => (doc, dup)

theorem pairsOf_cons (doc : EntityDoc) (docs all : List EntityDoc) :
    pairsOf (doc :: docs) all = ((dupOf all doc).map fun dup => (doc, dup)).toList ++ pairsOf docs all := by
  unfold pairsOf
  cases h : dupOf all doc with
  | none => rw [List.filterMap_cons_none (by rw [h]; rfl)]; rfl
  | some dup => rw [List.filterMap_cons_some (by rw [h]; rfl)]; rfl

theorem mem_pairsOf {docs : List EntityDoc} {c : Collection EntityDoc EntityKey EntityDoc.key}
    {p : EntityDoc × EntityDoc} :
    p ∈ pairsOf docs c.docs ↔ p.1 ∈ docs ∧ p.2 ∈ c.docs ∧ p.2.key = pathless p.1.key := by
  obtain ⟨doc, dup⟩ := p
  unfold pairsOf
  simp only [List.mem_filterMap, Option.map_eq_some_iff, Prod.mk.injEq, dupOf_eq_some_iff]
  constructor
  · rintro ⟨d, hd, x, ⟨hx, hk⟩, rfl, rfl⟩
    exact ⟨hd, hx, hk⟩
  · rintro ⟨hd, hx, hk⟩
    exact ⟨doc, hd, dup, ⟨hx, hk⟩, rfl, rfl⟩

/-- An iteration leaves the other pairs. -/
theorem pairsOf_step {doc : EntityDoc} {s' : Merge} (h : Ready (doc :: docs) s) (hstep : MergeStep doc s (none, s')) :
    pairsOf docs s'.world.entities.docs = pairsOf docs s.world.entities.docs := by
  have hother := (h.step hstep).2
  have hdup : ∀ d ∈ docs, dupOf s'.world.entities.docs d = dupOf s.world.entities.docs d := by
    intro d hd
    apply Option.ext
    intro x
    rw [dupOf_eq_some_iff, dupOf_eq_some_iff]
    refine and_congr_left fun hk => hother x ?_ ?_
    · rw [hk]
      exact pathless_ne (h.root doc List.mem_cons_self)
    · rw [hk]
      intro he
      exact (h.apart.2 d hd).2 he.symm
  unfold pairsOf
  refine List.filterMap_congr fun d hd => ?_
  rw [hdup d hd]

/-- Only the documents with the two keys count. -/
theorem settled_congr {doc dup : EntityDoc} {all all' : List EntityDoc}
    (h : ∀ x : EntityDoc, x.key = doc.key ∨ x.key = dup.key → (x ∈ all' ↔ x ∈ all)) :
    Settled doc dup all' ↔ Settled doc dup all := by
  have hone : ∀ {all all' : List EntityDoc},
      (∀ x : EntityDoc, x.key = doc.key ∨ x.key = dup.key → (x ∈ all' ↔ x ∈ all)) →
      Settled doc dup all → Settled doc dup all' := by
    rintro all all' h (⟨hd, hd'⟩ | ⟨hgone, d, hd, hk, hrest⟩)
    · exact .inl ⟨(h doc (.inl rfl)).2 hd, (h dup (.inr rfl)).2 hd'⟩
    · exact .inr ⟨fun x hx hk => hgone x ((h x (.inr hk)).1 hx) hk, d, (h d (.inl hk)).2 hd, hk, hrest⟩
  exact ⟨hone fun x hx => (h x hx).symm, hone h⟩

/-- What the property asks of a pair, in the end. -/
def Done (s : Merge) (p : EntityDoc × EntityDoc) : Prop :=
  (p.1.key, p.2.key) ∈ s.pairs ∧ Settled p.1 p.2 s.world.entities.docs

/-- All but the last pass, and where a pair is merged no attribute is stale. -/
def AllWell (pairs : List (EntityDoc × EntityDoc)) : Prop :=
  (∀ p ∈ pairs.dropLast, Passes p.1 p.2) ∧ ∀ p ∈ pairs, Merges p.1 p.2 → ¬ Stale p.1 p.2

theorem allWell_cons {p : EntityDoc × EntityDoc} {pairs : List (EntityDoc × EntityDoc)} (hp : Passes p.1 p.2) :
    AllWell (p :: pairs) ↔ (Merges p.1 p.2 → ¬ Stale p.1 p.2) ∧ AllWell pairs := by
  unfold AllWell
  rw [List.forall_mem_cons]
  cases pairs with
  | nil =>
    refine ⟨fun h => ⟨h.2.1, ?_, h.2.2⟩, fun h => ⟨?_, h.1, h.2.2⟩⟩
    · exact fun _ hn => absurd hn List.not_mem_nil
    · exact fun _ hn => absurd hn List.not_mem_nil
  | cons q pairs =>
    rw [List.dropLast_cons_cons, List.forall_mem_cons]
    exact ⟨fun h => ⟨h.2.1, h.1.2, h.2.2⟩, fun h => ⟨⟨hp, h.2.1⟩, h.1, h.2.2⟩⟩

/-- The rest of the loop does not come back to the pair at hand. -/
theorem Ready.done_iff {doc dup : EntityDoc} {s' : Merge} (h : Ready (doc :: docs) s)
    (hstep : MergeStep doc s (none, s')) (hkey : dup.key = pathless doc.key)
    (hpairs : s'.pairs = s.pairs ++ [(doc.key, dup.key)]) :
    Done (mergeLoop docs s').2 (doc, dup) ↔ Settled doc dup s'.world.entities.docs := by
  obtain ⟨hframe, hkeep, _⟩ := mergeLoop_frame docs (h.step hstep).1
  have hcounted : (doc.key, dup.key) ∈ (mergeLoop docs s').2.pairs :=
    hkeep _ (by rw [hpairs]; exact List.mem_append_right _ List.mem_cons_self)
  have hsettled : Settled doc dup (mergeLoop docs s').2.world.entities.docs ↔
      Settled doc dup s'.world.entities.docs := by
    refine settled_congr fun x hx => hframe x ?_
    rcases hx with hx | hx
    · rw [hx]
      exact h.apart.1
    · rw [hx, hkey]
      exact h.apart.2
  exact ⟨fun hd => hsettled.1 hd.2, fun hs => ⟨hcounted, hsettled.2 hs⟩⟩

theorem mergeLoop_iff (docs : List EntityDoc) : ∀ {s : Merge}, Ready docs s → (∀ p ∈ s.pairs, ∀ d ∈ docs, p.1 ≠ d.key) →
    ((∀ p ∈ pairsOf docs s.world.entities.docs, Done (mergeLoop docs s).2 p) ↔
      AllWell (pairsOf docs s.world.entities.docs)) := by
  induction docs with
  | nil =>
    intro s _ _
    refine ⟨fun _ => ⟨?_, ?_⟩, fun _ => ?_⟩
    · exact fun _ hn => absurd hn List.not_mem_nil
    · exact fun _ hn => absurd hn List.not_mem_nil
    · exact fun _ hn => absurd hn List.not_mem_nil
  | cons doc docs ih =>
    intro s h hnew
    have hdoc := h.mem doc List.mem_cons_self
    have hstep := mergeDoc_step h.sure hdoc (h.root doc List.mem_cons_self) (h.typed doc List.mem_cons_self)
    have hnew' : ∀ {s' : Merge} {dup : EntityDoc}, s'.pairs = s.pairs ++ [(doc.key, dup.key)] →
        ∀ p ∈ s'.pairs, ∀ d ∈ docs, p.1 ≠ d.key := by
      intro s' dup he p hp d hd
      rw [he] at hp
      rcases List.mem_append.1 hp with hp | hp
      · exact hnew p hp d (List.mem_cons_of_mem doc hd)
      · rw [List.mem_singleton.1 hp]
        exact (h.apart.1 d hd).1
    -- a pair that the script survives, and the rest
    have hgoes : ∀ {s' : Merge} {dup : EntityDoc}, MergeStep doc s (none, s') → dupOf s.world.entities.docs doc = some dup →
        s'.pairs = s.pairs ++ [(doc.key, dup.key)] → Passes doc dup →
        (Settled doc dup s'.world.entities.docs ↔ (Merges doc dup → ¬ Stale doc dup)) →
        ((∀ p ∈ (doc, dup) :: pairsOf docs s.world.entities.docs, Done (mergeLoop docs s').2 p) ↔
          AllWell ((doc, dup) :: pairsOf docs s.world.entities.docs)) := by
      intro s' dup hst hfound hpairs hpass hsettled
      have hrest := ih (h.step hst).1 (hnew' hpairs)
      rw [pairsOf_step h hst] at hrest
      rw [List.forall_mem_cons, allWell_cons hpass, hrest,
        h.done_iff hst (dupOf_eq_some_iff.1 hfound).2 hpairs, hsettled]
    rw [pairsOf_cons, mergeLoop]
    generalize mergeDoc doc s = r at hstep
    cases hst : hstep with
    | single hnone hw hpairs =>
      rename_i s'
      rw [hnone]
      have hrest := ih (h.step hstep).1 (by
        rw [hpairs]
        exact fun p hp d hd => hnew p hp d (List.mem_cons_of_mem doc hd))
      rw [pairsOf_step h hstep] at hrest
      exact hrest
    | ended e dup hfound hfails hw hpairs =>
      rename_i s'
      rw [hfound]
      show (∀ p ∈ (doc, dup) :: pairsOf docs s.world.entities.docs, Done s' p) ↔
        AllWell ((doc, dup) :: pairsOf docs s.world.entities.docs)
      have hthis : Done s' (doc, dup) := by
        refine ⟨by rw [hpairs]; exact List.mem_append_right _ List.mem_cons_self, .inl ?_⟩
        rw [hw]
        exact ⟨hdoc, (dupOf_eq_some_iff.1 hfound).1⟩
      cases hrest : pairsOf docs s.world.entities.docs with
      | nil =>
        refine ⟨fun _ => ⟨fun _ hn => absurd hn List.not_mem_nil, fun p hp hm => ?_⟩, fun _ p hp => ?_⟩
        · rw [List.mem_singleton.1 hp] at hm
          exact absurd hm.1 hfails
        · rw [List.mem_singleton.1 hp]
          exact hthis
      | cons q rest =>
        refine ⟨fun hall => ?_, fun hwell => ?_⟩
        · -- the next pair is never counted
          have hq : q ∈ pairsOf docs s.world.entities.docs := by rw [hrest]; exact List.mem_cons_self
          have hcounted := (hall q (List.mem_cons_of_mem _ List.mem_cons_self)).1
          exact absurd rfl (hnew' hpairs _ hcounted q.1 (mem_pairsOf.1 hq).1)
        · exact absurd (hwell.1 (doc, dup) List.mem_cons_self) hfails
    | skipped dup hfound hpass htwice hw hpairs =>
      rw [hfound]
      refine hgoes hstep hfound hpairs hpass ⟨fun _ hm => absurd hm.2 htwice, fun _ => .inl ?_⟩
      rw [hw]
      exact ⟨hdoc, (dupOf_eq_some_iff.1 hfound).1⟩
    | merged dup hfound hmerges hsure hpairs hdocs =>
      rw [hfound]
      have hdup := dupOf_eq_some_iff.1 hfound
      have hne : doc.key ≠ dup.key := by
        rw [hdup.2]
        exact (pathless_ne (h.root doc List.mem_cons_self)).symm
      refine hgoes hstep hfound hpairs hmerges.1 ?_
      rw [merged_iff hmerges.2.1 hmerges.2.2 ((hdocs _).2 (.inr rfl)) (fun d hd hk => ?_) (fun d hd hk => ?_)]
      · exact ⟨fun hs _ => hs, fun hs => hs hmerges⟩
      · rcases (hdocs d).1 hd with hd | hd
        · exact absurd hk hd.2.1
        · exact hd
      · rcases (hdocs d).1 hd with hd | rfl
        · exact hd.2.2 hk
        · exact hne hk

end

/-- **Exactly when merging loses nothing newer.** No call to the database fails, and no document has an empty type: the
broker stores none (MongoCommonUpdate.cpp:1417). Then every pair is looked at and ends as it was or well merged, if and
only if all pairs but the last pass the checks that raise, and in no pair that is merged an attribute is stale. -/
theorem mergeSp_iff {w : World} (hsure : w.Sure) (htyped : ∀ d ∈ w.entities.docs, d.key.type ≠ some "") :
    (∀ doc ∈ w.entities.docs, ∀ dup ∈ w.entities.docs, IsPair doc dup →
      (doc.key, dup.key) ∈ (mergeSp w).2.pairs ∧ Settled doc dup (mergeSp w).2.world.entities.docs) ↔
    (∀ p ∈ (pairsOf (w.entities.find underRoot) w.entities.docs).dropLast, Passes p.1 p.2) ∧
    ∀ p ∈ pairsOf (w.entities.find underRoot) w.entities.docs, Merges p.1 p.2 → ¬ Stale p.1 p.2 := by
  have hrun : mergeSp w = mergeLoop (w.entities.find underRoot) { world := w } := by
    unfold mergeSp
    rw [hsure.call]
    rfl
  have hready : Ready (w.entities.find underRoot) { world := w } :=
    ⟨hsure, fun d hd => (Collection.mem_find.1 hd).1, fun d hd => (Collection.mem_find.1 hd).2,
      fun d hd => htyped d (Collection.mem_find.1 hd).1, w.entities.find_nodup underRoot⟩
  rw [hrun]
  refine Iff.trans ?_ (mergeLoop_iff _ hready fun _ hp => absurd hp List.not_mem_nil)
  constructor
  · intro hall p hp
    obtain ⟨hdoc, hdup, hkey⟩ := mem_pairsOf.1 hp
    obtain ⟨hdoc, hroot⟩ := Collection.mem_find.1 hdoc
    exact hall p.1 hdoc p.2 hdup ⟨hroot, hkey⟩
  · intro hall doc hdoc dup hdup hpair
    exact hall (doc, dup) (mem_pairsOf.2 ⟨Collection.mem_find.2 ⟨hdoc, hpair.1⟩, hdup, hpair.2⟩)

/-! ## Rooms -/

/-- A room under this path, dated, with a temperature of this date. -/
def room (id : String) (servicePath : Option String) (modDate attrDate : Int) : EntityDoc where
  key := ⟨id, some "T", servicePath⟩
  attrs := [{ name := some "t", value := some (.str (toString attrDate)), modDate := some attrDate }]
  modDate := some modDate

/-- A document and its duplicate, for each of these. -/
def roomsWorld (docs : List EntityDoc) (h : (docs.map EntityDoc.key).Nodup) : World := { entities := ⟨docs, h⟩ }

/-- A room and its duplicate, which has an older temperature. -/
def freshRoom : World := roomsWorld [room "Room" (some "/") 200 200, room "Room" none 100 100] (by decide)

/-- The same, but for the temperatures: the document was changed later than its duplicate, and its temperature was
not. -/
def staleRoom : World := roomsWorld [room "Room" (some "/") 200 50, room "Room" none 100 90] (by decide)

/-- Two rooms; the duplicate of the first is newer. -/
def twoRooms : World :=
  roomsWorld [room "Room1" (some "/") 100 100, room "Room1" none 200 200, room "Room2" (some "/") 200 200,
    room "Room2" none 100 100] (by decide)

theorem freshRoom_merged :
    (mergeSp freshRoom).2.world.entities.docs = [room "Room" (some "/") 200 200] ∧
    ∀ doc ∈ freshRoom.entities.docs, ∀ dup ∈ freshRoom.entities.docs, IsPair doc dup →
      (doc.key, dup.key) ∈ (mergeSp freshRoom).2.pairs ∧ Settled doc dup (mergeSp freshRoom).2.world.entities.docs := by
  have hpairs : pairsOf (freshRoom.entities.find underRoot) freshRoom.entities.docs =
      [(room "Room" (some "/") 200 200, room "Room" none 100 100)] := by decide +kernel
  refine ⟨by decide +kernel, (@mergeSp_iff freshRoom rfl (by decide +kernel)).2 ?_⟩
  rw [hpairs]
  refine ⟨fun p hp => absurd hp List.not_mem_nil, fun p hp _ => ?_⟩
  rw [List.mem_singleton.1 hp]
  decide +kernel

/-- **The newer value is lost, and a newer duplicate ends the script.** The room keeps its older temperature and the
duplicate with the newer one is removed. Of two rooms the second is never looked at. -/
theorem staleRoom_lost :
    (mergeSp staleRoom).1 = none ∧
    (mergeSp staleRoom).2.world.entities.docs = [room "Room" (some "/") 200 50] ∧
    ¬ Settled (room "Room" (some "/") 200 50) (room "Room" none 100 90) (mergeSp staleRoom).2.world.entities.docs ∧
    (mergeSp twoRooms).1 = some (.typeError "not all arguments converted during string formatting") ∧
    (mergeSp twoRooms).2.pairs = [(⟨"Room1", some "T", some "/"⟩, ⟨"Room1", some "T", none⟩)] := by
  have hdocs : (mergeSp staleRoom).2.world.entities.docs = [room "Room" (some "/") 200 50] := by decide +kernel
  refine ⟨by decide +kernel, hdocs, ?_, by decide +kernel, by decide +kernel⟩
  rw [hdocs]
  rintro (⟨_, hdup⟩ | hm)
  · have hno : room "Room" none 100 90 ∉ [room "Room" (some "/") 200 50] := by decide +kernel
    exact hno hdup
  · obtain ⟨d, hd, _, _, hnewest⟩ := hm.newest
    rw [List.mem_singleton.1 hd] at hnewest
    have hold : ∃ b ∈ (room "Room" (some "/") 200 50).attrs, ∃ a ∈ (room "Room" none 100 90).attrs,
      a.name = b.name ∧ Older b a := by decide +kernel
    obtain ⟨b, hb, a, ha, hname, hold⟩ := hold
    exact (hnewest b hb).2 a (List.mem_append_right _ ha) hname hold

end OrionBroker.MergeDefaultSp
