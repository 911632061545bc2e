import Mathlib.Control.Monad.Basic
import Treasury.Proofs.Action
import Treasury.Proofs.Definitions.Reading

/-!
# Loading documents

Loading checks a document, makes definitions of its drafts and adds them to the catalog one by one.
Since drafts that were accepted become definitions, it fails in the first step or not at all, so a
catalog is never left half extended. Items of a list are checked by themselves, and definitions are
added in order, so documents may be loaded one after another or joined.

* `Catalog.find?_addingAll`, `Catalog.map_addingAll`: of the definitions of one id the last one is
  kept, in the place of the first.
* `Document.Defines`: which definitions a document that is accepted has, in order.
* `Document.exec_loading_of_defines`, `Document.of_exec_loading`: what loading makes of a catalog.
* `Document.Joins`: a document has the cards and events of two others.
* `Document.loading_atomic_and_compositional`: a document that is refused leaves the catalog alone,
  and a joined document is loaded as its two parts are.
-/

namespace Treasury

/-! ## Adding definitions one by one -/

namespace Catalog

variable {α : Type}

/-- A list of definitions after some are added one after another. -/
def addingAll (id : α → String) (ds l : List α) : List α := ds.foldl (fun l d => adding id d l) l

/-- The catalog with cards and events added. -/
def extended (c : Catalog) (cards : List CardDefinition) (events : List EventDefinition) :
    Catalog where
  cards := addingAll (·.id) cards c.cards
  events := addingAll (·.id) events c.events

/-- Of the definitions of an id that are added the last one is kept, and without one the definition
of before. -/
theorem find?_addingAll (id : α → String) (ds l : List α) (key : String) :
    (addingAll id ds l).find? (id · = key) =
      (ds.reverse.find? (id · = key)).or (l.find? (id · = key)) := by
  induction ds generalizing l with
  | nil => rfl
  | cons d rest ih =>
    have hadd : (adding id d l).find? (id · = key) =
        ([d].find? (id · = key)).or (l.find? (id · = key)) := by
      by_cases h : id d = key
      · subst h
        simp [find?_adding_self]
      · simp [find?_adding_of_ne id d l h, h]
    rw [List.reverse_cons, List.find?_append, Option.or_assoc, ← hadd]
    exact ih _

/-- A definition that is added takes the place of the one of its id, or the last place. -/
theorem map_adding (id : α → String) (d : α) (l : List α) :
    (adding id d l).map id = if id d ∈ l.map id then l.map id else l.map id ++ [id d] := by
  induction l with
  | nil => rfl
  | cons e rest ih =>
    unfold adding
    by_cases h : id e = id d
    · simp [h]
    · have hne : id d ≠ id e := fun heq => h heq.symm
      rw [if_neg h, List.map_cons, ih]
      by_cases hmem : id d ∈ rest.map id <;> simp [hmem, hne]

/-- Ids keep the places in which they first came. -/
theorem map_addingAll (id : α → String) (ds l : List α) :
    (addingAll id ds l).map id =
      (ds.map id).foldl (fun ids key => if key ∈ ids then ids else ids ++ [key]) (l.map id) := by
  induction ds generalizing l with
  | nil => rfl
  | cons d rest ih =>
    rw [List.map_cons, List.foldl_cons, ← map_adding]
    exact ih _

theorem foldl_addCard (cards : List CardDefinition) (c : Catalog) :
    cards.foldl addCard c = c.extended cards [] := by
  induction cards generalizing c with
  | nil => rfl
  | cons d rest ih => exact ih _

theorem foldl_addEvent (events : List EventDefinition) (c : Catalog) :
    events.foldl addEvent c = c.extended [] events := by
  induction events generalizing c with
  | nil => rfl
  | cons e rest ih => exact ih _

/-- Cards and events may be added in two parts. -/
theorem extended_extended (c : Catalog) (cards cards' : List CardDefinition)
    (events events' : List EventDefinition) :
    (c.extended cards events).extended cards' events' =
      c.extended (cards ++ cards') (events ++ events') := by
  simp only [extended, addingAll, List.foldl_append]

end Catalog

namespace Document

open Treasury.Field

/-! ## Loading one document -/

/-- A document is accepted, and these are the definitions that become of its drafts. -/
def Defines (j : Json) (cards : List CardDefinition) (events : List EventDefinition) : Prop :=
  ∃ d, ofJson j = .good d ∧
    d.cards.mapM CardDraft.read = .ok cards ∧ d.events.mapM EventDraft.read = .ok events

/-- A document that is accepted defines something. -/
theorem exists_defines {j : Json} {d : Document} (h : ofJson j = .good d) :
    ∃ cards events, Defines j cards events := by
  obtain ⟨⟨cards, hcards⟩, ⟨events, hevents⟩⟩ := ensures_ofJson j d h
  exact ⟨cards, events, d, h, hcards, hevents⟩

/-- Drafts that become definitions are added one after another. -/
theorem exec_forM_made {δ α : Type} {f : δ → Except Grade.ReadError α}
    {add : Catalog → α → Catalog} {ds : List δ} {xs : List α} (h : ds.mapM f = .ok xs)
    (c : Catalog) :
    exec (ds.forM fun d => do
        let x ← Loading.made (f d)
        modify (add · x)) c = (.ok (), xs.foldl add c) := by
  induction ds generalizing xs c with
  | nil =>
    cases h
    rfl
  | cons d rest ih =>
    rw [List.mapM_cons] at h
    -- Nothing is added before all of them could be made, so no one of them fails here.
    cases hd : f d with
    | error e =>
      rw [hd] at h
      cases h
    | ok x =>
      cases hrest : rest.mapM f with
      | error e =>
        rw [hd, hrest] at h
        cases h
      | ok ys =>
        rw [hd, hrest] at h
        cases h
        rw [List.forM_eq_forM, List.forM_cons, exec_bind, hd, Loading.made, pure_bind, exec_modify]
        exact ih hrest _

/-- Loading a document that is accepted adds all that it defines. -/
theorem exec_loading_of_defines {j : Json} {cards : List CardDefinition}
    {events : List EventDefinition} (h : Defines j cards events) (c : Catalog) :
    exec (loading j) c = (.ok (), c.extended cards events) := by
  obtain ⟨d, hd, hcards, hevents⟩ := h
  rw [loading, hd, Loading.checked, pure_bind, exec_bind, exec_forM_made hcards]
  dsimp only
  rw [exec_forM_made hevents, Catalog.foldl_addCard, Catalog.foldl_addEvent,
    Catalog.extended_extended, List.append_nil, List.nil_append]

/-- Loading a document with problems adds nothing. -/
theorem exec_loading_of_bad {j : Json} {ps : List Problem} (h : ofJson j = .bad ps) (c : Catalog) :
    exec (loading j) c = (.error (.refused ps), c) := by
  rw [loading, h]
  rfl

/-- A document is loaded if it has no problems, whatever the catalog. -/
theorem loading_ok_iff (j : Json) (c : Catalog) :
    (exec (loading j) c).1 = .ok () ↔ ∃ d, ofJson j = .good d := by
  cases h : ofJson j with
  | bad ps =>
    rw [exec_loading_of_bad h]
    exact iff_of_false nofun nofun
  | good d =>
    obtain ⟨cards, events, hdefines⟩ := exists_defines h
    rw [exec_loading_of_defines hdefines]
    exact iff_of_true rfl ⟨d, rfl⟩

/-- What a document that is loaded makes of a catalog: under each id there is the last definition
that the document has of it, and else the one of before, and ids keep the places in which they first
came. -/
theorem of_exec_loading {j : Json} {c u : Catalog} (h : exec (loading j) c = (.ok (), u)) :
    ∃ cards events, Defines j cards events ∧
      (∀ id, u.card? id = (cards.reverse.find? (·.id = id)).or (c.card? id)) ∧
      (∀ id, u.event? id = (events.reverse.find? (·.id = id)).or (c.event? id)) ∧
      u.cards.map (·.id) = (cards.map (·.id)).foldl
        (fun ids id => if id ∈ ids then ids else ids ++ [id]) (c.cards.map (·.id)) ∧
      u.events.map (·.id) = (events.map (·.id)).foldl
        (fun ids id => if id ∈ ids then ids else ids ++ [id]) (c.events.map (·.id)) := by
  obtain ⟨d, hd⟩ := (loading_ok_iff j c).mp (congrArg Prod.fst h)
  obtain ⟨cards, events, hdefines⟩ := exists_defines hd
  rw [exec_loading_of_defines hdefines] at h
  cases h
  exact ⟨cards, events, hdefines, Catalog.find?_addingAll _ _ _, Catalog.find?_addingAll _ _ _,
    Catalog.map_addingAll _ _ _, Catalog.map_addingAll _ _ _⟩

/-! ## Loading joined documents -/

/-- A member of an object lists the items that it lists in two others. -/
def JoinsAt (name : String) (a b ab : Members) : Prop :=
  ∃ first last, listed? a name = some first ∧ listed? b name = some last ∧
    listed? ab name = some (first ++ last)

/-- The cards and the events of a document are those of two others, one after the other. -/
structure Joins (a b ab : Members) : Prop where
  /-- The cards are. -/
  cards : JoinsAt "cards" a b ab
  /-- The events are. -/
  events : JoinsAt "events" a b ab

/-- A joined list is accepted if its parts are. -/
theorem optional_eq_good_iff_of_joinsAt {α : Type} {read : Json → Checked α} {name : String}
    {a b ab : Members} (h : JoinsAt name a b ab) {as : List α} :
    optional ab name (listOf read) [] = .good as ↔ ∃ first last,
      optional a name (listOf read) [] = .good first ∧
        optional b name (listOf read) [] = .good last ∧ as = first ++ last := by
  obtain ⟨first, last, ha, hb, hab⟩ := h
  simp only [optional_listOf_eq_good_iff ha, optional_listOf_eq_good_iff hb,
    optional_listOf_eq_good_iff hab, List.map_append]
  constructor
  · intro heq
    obtain ⟨xs, ys, rfl, hxs, hys⟩ := List.append_eq_map_iff.mp heq
    exact ⟨xs, ys, hxs.symm, hys.symm, rfl⟩
  · rintro ⟨xs, ys, hxs, hys, rfl⟩
    rw [hxs, hys, List.map_append]

/-- An object is accepted if its cards and its events are. -/
theorem ofJson_eq_good_iff {o : Members} {d : Document} :
    ofJson (.obj o) = .good d ↔ optional o "cards" (listOf card) [] = .good d.cards ∧
      optional o "events" (listOf event) [] = .good d.events := by
  change Document.mk <$> _ <*> _ = _ ↔ _
  rw [Checked.seq_eq_good_iff]
  constructor
  · rintro ⟨g, events, hg, hevents, rfl⟩
    obtain ⟨cards, hcards, rfl⟩ := Checked.map_eq_good_iff.mp hg
    exact ⟨hcards, hevents⟩
  · rintro ⟨hcards, hevents⟩
    exact ⟨_, _, Checked.map_eq_good_iff.mpr ⟨_, hcards, rfl⟩, hevents, rfl⟩

/-- A joined document is accepted if its parts are, and it has the drafts of both. -/
theorem ofJson_eq_good_iff_of_joins {a b ab : Members} (h : Joins a b ab) {d : Document} :
    ofJson (.obj ab) = .good d ↔ ∃ da db, ofJson (.obj a) = .good da ∧
      ofJson (.obj b) = .good db ∧
        d = { cards := da.cards ++ db.cards, events := da.events ++ db.events } := by
  simp only [ofJson_eq_good_iff, optional_eq_good_iff_of_joinsAt h.cards,
    optional_eq_good_iff_of_joinsAt h.events]
  constructor
  · rintro ⟨⟨ca, cb, hca, hcb, hcards⟩, ea, eb, hea, heb, hevents⟩
    refine ⟨⟨ca, ea⟩, ⟨cb, eb⟩, ⟨hca, hea⟩, ⟨hcb, heb⟩, ?_⟩
    rw [← hcards, ← hevents]
  · rintro ⟨da, db, ⟨hca, hea⟩, ⟨hcb, heb⟩, rfl⟩
    exact ⟨⟨_, _, hca, hcb, rfl⟩, _, _, hea, heb, rfl⟩

/-- A joined document defines what its parts do. -/
theorem Defines.append {a b ab : Members} (h : Joins a b ab) {cards cards' : List CardDefinition}
    {events events' : List EventDefinition} (ha : Defines (.obj a) cards events)
    (hb : Defines (.obj b) cards' events') :
    Defines (.obj ab) (cards ++ cards') (events ++ events') := by
  obtain ⟨da, hda, hca, hea⟩ := ha
  obtain ⟨db, hdb, hcb, heb⟩ := hb
  refine ⟨_, (ofJson_eq_good_iff_of_joins h).mpr ⟨da, db, hda, hdb, rfl⟩, ?_, ?_⟩
  · rw [List.mapM_append, hca, hcb]
    rfl
  · rw [List.mapM_append, hea, heb]
    rfl

/-- Loading is atomic: where it fails, the catalog is as it was, and the reason are problems that
were found before anything was added. Loading is compositional: a document whose cards and events
are those of two others is loaded if both are, and makes of the catalog what loading one and then
the other does. -/
theorem loading_atomic_and_compositional :
    (∀ (j : Json) (c u : Catalog) (fault : LoadFault),
      exec (loading j) c = (.error fault, u) → u = c ∧ ∃ ps, fault = .refused ps) ∧
    ∀ a b ab : Members, Joins a b ab →
      (∀ c c₁ c₂ : Catalog, (exec (loading (.obj ab)) c).1 = .ok () ↔
        (exec (loading (.obj a)) c₁).1 = .ok () ∧ (exec (loading (.obj b)) c₂).1 = .ok ()) ∧
      ∀ c : Catalog, (exec (loading (.obj ab)) c).1 = .ok () →
        exec (loading (.obj ab)) c =
          exec (do loading (.obj a); loading (.obj b)) c := by
  refine ⟨fun j c u fault hexec => ?_, fun a b ab h => ⟨fun c c₁ c₂ => ?_, fun c hok => ?_⟩⟩
  · -- A document that can be read defines something, and then loading it cannot fail.
    cases hj : ofJson j with
    | bad ps =>
      rw [exec_loading_of_bad hj] at hexec
      cases hexec
      exact ⟨rfl, ps, rfl⟩
    | good d =>
      obtain ⟨cards, events, hdefines⟩ := exists_defines hj
      rw [exec_loading_of_defines hdefines] at hexec
      cases hexec
  · simp only [loading_ok_iff, ofJson_eq_good_iff_of_joins h]
    constructor
    · rintro ⟨_, da, db, ha, hb, -⟩
      exact ⟨⟨da, ha⟩, db, hb⟩
    · rintro ⟨⟨da, ha⟩, db, hb⟩
      exact ⟨_, da, db, ha, hb, rfl⟩
  · obtain ⟨d, hd⟩ := (loading_ok_iff _ c).mp hok
    obtain ⟨da, db, hda, hdb, -⟩ := (ofJson_eq_good_iff_of_joins h).mp hd
    -- Both documents define something, and what they define together is one behind the other.
    obtain ⟨cards, events, ha⟩ := exists_defines hda
    obtain ⟨cards', events', hb⟩ := exists_defines hdb
    rw [exec_loading_of_defines (ha.append h hb), exec_bind, exec_loading_of_defines ha]
    dsimp only
    rw [exec_loading_of_defines hb, Catalog.extended_extended]

/-- A document with a copper, joined with one that has another copper and a silver. With a grade
that there is not, the silver is refused, and the copper before it is not added. -/
theorem loading_of_two_coppers :
    let treasure (id name : String) (grade : Json) : Json :=
      .obj [("id", .str id), ("name", .str name), ("card_type", .str "treasure"),
        ("treasure_grade", grade)]
    let copper := treasure "copper" "Copper" (.str "copper")
    let newCopper := treasure "copper" "New copper" (.int 1)
    let silver := treasure "silver" "Silver" (.str " SILVER ")
    let a : Members := [("cards", .arr [copper])]
    let b : Members := [("cards", .arr [silver, newCopper]), ("events", .arr [])]
    let ab : Members := [("cards", .arr [copper, silver, newCopper])]
    let refused : Json := .obj [("cards", .arr [copper, treasure "silver" "Silver" (.int 8)])]
    Joins a b ab ∧ (exec (loading (.obj ab)) {}).1 = .ok () ∧
      exec (loading (.obj ab)) {} = exec (do loading (.obj a); loading (.obj b)) {} ∧
      (exec (loading (.obj ab)) {}).2.cards.map (·.name) = ["New copper", "Silver"] ∧
      ∃ fault, exec (loading refused) {} = (.error fault, {}) := by
  intro treasure copper newCopper silver a b ab refused
  have hjoins : Joins a b ab := ⟨⟨_, _, rfl, rfl, rfl⟩, ⟨_, _, rfl, rfl, rfl⟩⟩
  have hok : (exec (loading (.obj ab)) {}).1 = .ok () := by decide +kernel
  refine ⟨hjoins, hok, (loading_atomic_and_compositional.2 a b ab hjoins).2 {} hok,
    by decide +kernel, ?_⟩
  have hrefused : (exec (loading refused) {}).1 ≠ .ok () := by decide +kernel
  rcases hexec : exec (loading refused) {} with ⟨fault | ⟨⟩, u⟩
  · obtain ⟨rfl, -⟩ := loading_atomic_and_compositional.1 refused {} u fault hexec
    exact ⟨fault, rfl⟩
  · exact absurd (congrArg Prod.fst hexec) hrefused

end Document

end Treasury
