import Treasury.Proofs.Execution.Footprint
import Treasury.Proofs.Execution.Frame
import Treasury.Proofs.Execution.Gains

/-!
# What effects are confined to

The footprint of a kind of effects says which parts of the table it may change. Of three parts more
can be said, whatever the kind: the play area only loses cards, only targets are boosted, and a
gamble throws the dice for its roll and for its two amounts, and not for the payment.

* `Table.Clears`: the play area only lost cards.
* `Assignment.confined_execute`: every effect is confined to the parts that its kind changes, and
  within these as above.
-/

namespace Treasury

/-- The play area of the second table is that of the first, maybe without some of its cards. -/
def Table.Clears (t u : Table) : Prop := u.game.zones.play.Sublist t.game.zones.play

namespace Table.Clears

variable {r : Rules} {α : Type} {ps : List Part}

instance : IsPreorder Table Clears where
  refl _ := List.Sublist.refl _
  trans _ _ _ h k := List.Sublist.trans k h

/-- What leaves the play area as it is takes nothing off it. -/
theorem keeps_of_differsIn (ps : List Part) (h : .playArea ∉ ps) {x : Play α}
    (hx : Keeps (DiffersIn ps) x) : Keeps Clears x := hx.mono fun t u hdiffers => by
  have hsame : u.game.zones.play = t.game.zones.play := (hdiffers .playArea).resolve_left h
  unfold Clears
  rw [hsame]

theorem changeZones {f : Zones → Zones} (h : ∀ z, (f z).play.Sublist z.play) :
    Keeps Clears (Play.changeZones f) := fun t => h t.game.zones

theorem update_without (zone : Zone) (c : Card) (z : Zones) :
    (z.update zone (·.without c)).play.Sublist z.play := by
  cases zone with
  | play => exact List.eraseP_sublist
  | deck | hand | discard => exact List.Sublist.refl _

theorem destroyAll (cs : List Card) : Keeps Clears (Assignment.destroyAll r cs) := by
  induction cs with
  | nil => exact .pure _
  | cons c rest ih =>
    refine .bind (Play.keeps_serve (.bind (.of_fixed fun _ => rfl) fun g => ?_)) fun _ =>
      .bind ih fun _ => .pure _
    split
    · exact .bind (changeZones (update_without _ c)) fun _ => .pure _
    · exact .pure _

/-- A unit that dies takes its cards off the play area. -/
theorem killUnit (m : Member) : Keeps Clears (Roster.killUnit r m) := by
  have hbury (u : Resident) : Keeps Clears (do
      Play.changeZones (·.withoutOwner u.unitId)
      Play.changeGame fun g => { g with residents := g.residents.erase u }) :=
    .bind (changeZones fun _ => List.filter_sublist) fun _ =>
      keeps_of_differsIn [.units] (by decide)
        (DiffersIn.changeUnits (by decide) _ (·.houses))
  refine Play.keeps_serve (.bind (.of_fixed fun _ => rfl) fun g => ?_)
  dsimp only
  split
  · exact hbury _
  · exact .bind (.map (keeps_of_differsIn [.units] (by decide)
      (DiffersIn.leaveHouse (by decide) m)) _) hbury

/-- Whatever the effect, nothing comes to lie in the play area. -/
theorem executeKind (a : Assignment) (kind : EffectKind) : Keeps Clears (a.executeKind r kind) := by
  by_cases h : kind ∈ Part.playArea.changedBy
  · simp only [Part.changedBy, List.mem_cons, List.not_mem_nil, or_false] at h
    rcases h with rfl | rfl | rfl
    · exact .bind (destroyAll _) fun _ => .pure _
    · exact .bind (.of_fixed fun _ => rfl) fun _ => .bind (destroyAll _) fun _ => .pure _
    · refine .bind (.bind (.of_fixed fun _ => rfl) fun _ =>
        keeps_of_differsIn [.dice] (by decide)
          (DiffersIn.keeps_of_rolled (by decide) (Rolled.throwDice _))) fun picked => ?_
      split
      · exact .pure _
      · exact .bind (killUnit _) fun _ => .pure _
  · exact keeps_of_differsIn _ (mt EffectKind.mem_changes_iff.mp h) (DiffersIn.executeKind a r kind)

end Table.Clears

namespace Assignment

variable {r : Rules}

/-- Only targets are boosted. -/
theorem grade?_executeKind (a : Assignment) (r : Rules) (kind : EffectKind) (t : Table) {c : Card}
    (h : ∀ d ∈ a.targets, d.serial ≠ c.serial) :
    (exec (a.executeKind r kind) t).2.game.boosts.grade? c = t.game.boosts.grade? c := by
  by_cases hkind : kind = .boostTreasure
  · subst hkind
    exact grade?_boosted_of_ne _ h t.game.boosts
  · have hsame : Part.boosts.Same t (exec (a.executeKind r kind) t).2 :=
      .executeKind (fun hmem => hkind (List.mem_singleton.mp hmem)) a r t
    exact congrArg (Boosts.grade? · c) hsame

/-- A gamble throws the dice as its wager does; paying the outcome throws none. -/
theorem dice_gamble (a : Assignment) (r : Rules) (t : Table) :
    (exec (a.gamble r) t).2.dice = (exec (a.wager r) t).2.dice := by
  rw [gamble_eq, exec_bind]
  rcases exec (a.wager r) t with ⟨f | ⟨won, outcome⟩, u⟩
  · rfl
  · have hpayment : Keeps (Table.DiffersIn [.gold]) (do
        Economy.apply r outcome
        return { kind := a.effect.kind, success := won, count := a.targets.length,
                 value := outcome : EffectResult }) :=
      .bind (.apply (by decide) outcome) fun _ => .pure _
    exact (hpayment u .dice).resolve_left (by decide)

/-- An effect changes a part of the table only if its kind is one of those that change it, and an
effect of an unknown kind changes none. Whatever its kind, the play area loses cards at most, and
cards of which no copy is a target keep their boosts. A gamble throws the dice once for its roll,
and beyond that only if its amounts do. All of this holds whether or not the effect fails. -/
theorem confined_execute (a : Assignment) (r : Rules) (t : Table) :
    let u := (exec (a.execute r) t).2
    (∀ p : Part, p.Same t u ∨ ∃ kind ∈ p.changedBy, a.effect.kind = .known kind) ∧
      u.game.zones.play.Sublist t.game.zones.play ∧
      (∀ c : Card, u.game.boosts.grade? c = t.game.boosts.grade? c ∨
        ∃ d ∈ a.targets, d.serial = c.serial) ∧
      (a.effect.kind = .known .gamble → u.dice = (exec (a.wager r) t).2.dice) := by
  intro u
  rcases hkind : a.effect.kind with kind | word
  · have hu : u = (exec (a.executeKind r kind) t).2 := by rw [← execute_of_known hkind]
    rw [hu]
    refine ⟨fun p => ?_, Table.Clears.executeKind a kind t, fun c => ?_, fun hgamble => ?_⟩
    · refine (Table.DiffersIn.executeKind a r kind t p).symm.imp_right fun hp => ?_
      exact ⟨kind, EffectKind.mem_changes_iff.mp hp, rfl⟩
    · by_cases htarget : ∃ d ∈ a.targets, d.serial = c.serial
      · exact .inr htarget
      · refine .inl (grade?_executeKind a r kind t fun d hd hserial => htarget ⟨d, hd, hserial⟩)
    · cases hgamble
      exact dice_gamble a r t
  · -- An effect of an unknown kind does nothing.
    have hu : u = t := by simp [u, execute_of_unknown hkind]
    rw [hu]
    exact ⟨fun p => .inl (Std.Refl.refl t), List.Sublist.refl _, fun _ => .inl rfl, nofun⟩

end Assignment

end Treasury
