import CommandDesk.Cli.Edit
import CommandDesk.Proofs.Config.Validation
import CommandDesk.Proofs.Table
import Mathlib.Data.List.Induction

/-!
# The last decision about a hack

A configuration holds a preset of hacks and switches on top of it, and the set of
hacks is made of them anew every time. A configuration whose set can be made
decides about each hack on its own (`hackSet_eq_ok`). Choosing presets and
switching hacks from the command line keeps that so, and whether a hack is on
then follows from the decisions alone, the last one first (`hackSet_followAll`).
-/

namespace CommandDesk

/-- A decision about hacks from the command line. -/
inductive HackDecision where
  | choose (preset : String)
  | switch (hack : String) (enabled : Bool)
  deriving DecidableEq

namespace HackDecision

/-- The edit that makes it. -/
def edit : HackDecision → Cli.Edit
  | choose preset => .choosePreset preset
  | switch hack enabled => .switchHack hack enabled

/-- The preset that is chosen. -/
def preset? : HackDecision → Option String
  | choose preset => some preset
  | switch _ _ => none

/-- How a hack is switched. -/
def switched? (hack : String) : HackDecision → Option Bool
  | choose _ => none
  | switch other enabled => if other = hack then some enabled else none

/-- The preset of the last choice. -/
def lastPreset? (ds : List HackDecision) : Option String := ds.reverse.findSome? preset?

/-- How a hack was switched last, among the decisions since the last choice of a preset. -/
def lastSwitch? (ds : List HackDecision) (hack : String) : Option Bool :=
  (ds.reverse.takeWhile (·.preset?.isNone)).findSome? (switched? hack)

end HackDecision

/-- Whether the preset of an id enables a hack. -/
def Preset.selects (id hack : String) : Bool :=
  (Preset.find? id).any (·.enabledHacks.contains hack)

namespace Config

open HackDecision

/-- The configuration after a decision, if it is accepted. -/
def follow (c : Config) (d : HackDecision) : Except Cli.Refusal Config :=
  (d.edit.run (.ok c)).map (·.1)

/-- The configuration after decisions in turn, if every one is accepted. -/
def followAll (c : Config) (ds : List HackDecision) : Except Cli.Refusal Config :=
  ds.foldlM follow c

/-- Whether a hack is on by the switches of a configuration, or else by its preset. -/
def hackOn (c : Config) (hack : String) : Bool :=
  (c.hacks.overrides.get? hack).getD (Preset.selects c.hacks.preset hack)

/-- Whether a hack is on after decisions: by the last switch since a preset was chosen, or else by
the preset that was chosen last, or else as before. -/
def hackOnAfter (c : Config) (ds : List HackDecision) (hack : String) : Bool :=
  match lastSwitch? ds hack, lastPreset? ds with
  | some enabled, _ => enabled
  | none, some preset => Preset.selects preset hack
  | none, none => c.hackOn hack

variable {c c' : Config} {s : HackSet} {p : Preset} {id : String}

/-! ## The set of hacks, hack by hack -/

/-- **Switches in turn** leave every hack as the last one for it says. -/
theorem foldlM_setEnabled_eq_ok {es : List (String × Bool)} {t : HackSet}
    (hids : (s.hacks.map (·.id)).Nodup)
    (h : es.foldlM (fun s (e : String × Bool) => s.setEnabled e.1 e.2) s = .ok t) :
    t.hacks = s.hacks.map fun h =>
      { h with enabled := ((es.reverse.find? (·.1 = h.id)).map (·.2)).getD h.enabled } := by
  induction es generalizing s with
  | nil =>
    obtain rfl := pure_eq_ok.1 h
    exact (List.map_id _).symm
  | cons e es ih =>
    rw [List.foldlM_cons, bind_eq_ok] at h
    obtain ⟨next, hnext, hrest⟩ := h
    obtain ⟨-, rfl⟩ := setEnabled_eq_ok.1 hnext
    have hkept := HackSet.map_id_switchFirst e.1 e.2 s.hacks
    rw [ih (by rw [hkept]; exact hids) hrest, HackSet.switchFirst_eq_map hids, List.map_map]
    refine List.map_congr_left fun h _ => ?_
    rw [List.reverse_cons, List.find?_append, Function.comp_apply]
    by_cases he : h.id = e.1
    · rw [if_pos he]
      cases es.reverse.find? (·.1 = h.id) <;> simp [he]
    · rw [if_neg he]
      cases es.reverse.find? (·.1 = h.id) <;> simp [Ne.symm he]

/-- **The set of hacks of a configuration** are the standard ones, each on or off by itself. -/
theorem hackSet_eq_ok (h : c.hackSet = .ok s) :
    s.hacks = HackSet.standard.hacks.map fun h => { h with enabled := c.hackOn h.id } := by
  unfold hackSet at h
  cases hp : Preset.find? c.hacks.preset with
  | none => simp [hp] at h
  | some p =>
    rw [hp] at h
    have hids : ((HackSet.standard.applyPreset p).hacks.map (·.id)).Nodup := by
      rw [HackSet.map_id_applyPreset]
      decide
    rw [foldlM_setEnabled_eq_ok hids h]
    unfold HackSet.applyPreset
    rw [List.map_map]
    refine List.map_congr_left fun h _ => ?_
    -- the entries of a table, set in turn, are the table
    have hget := Table.get?_insertAll .empty c.hacks.overrides.entries h.id
    rw [← Table.ofList, Table.ofList_entries, Table.get?_empty, Option.or_none] at hget
    simp [hackOn, hget, Preset.selects, hp, Preset.apply]

/-! ## One decision -/

theorem follow_choose_eq_ok {preset : String} : c.follow (.choose preset) = .ok c' ↔
    ∃ p, Preset.find? preset = some p ∧ c.choosePreset p = c' := by
  unfold follow HackDecision.edit Cli.Edit.run
  dsimp only
  cases Preset.find? preset with
  | none => simp [Except.map]
  | some p => simp [Except.map, Cli.refuse, bind, Except.bind, pure, Except.pure]

theorem follow_switch_eq_ok {hack : String} {enabled : Bool} :
    c.follow (.switch hack enabled) = .ok c' ↔
      (HackSet.standard.get? hack).isSome = true ∧ c.switchHack hack enabled = c' := by
  unfold follow HackDecision.edit Cli.Edit.run
  dsimp only
  cases HackSet.standard.get? hack with
  | none => simp [Except.map]
  | some h => simp [Except.map, Cli.refuse, bind, Except.bind, pure, Except.pure]

/-- A preset that is found is found under its own id. -/
theorem find?_id (h : Preset.find? id = some p) : Preset.find? p.id = some p := by
  have hid : p.id = id := by simpa using List.find?_some h
  rw [hid, h]

/-- A chosen preset decides about every hack; no switch is left on top of it. -/
theorem hackOn_choosePreset (h : Preset.find? id = some p) (hack : String) :
    (c.choosePreset p).hackOn hack = Preset.selects id hack := by
  have hpreset : (c.choosePreset p).hackOn hack = Preset.selects p.id hack := rfl
  rw [hpreset, Preset.selects, find?_id h, Preset.selects, h]

theorem hackOn_switchHack (hack other : String) (enabled : Bool) :
    (c.switchHack hack enabled).hackOn other =
      if other = hack then enabled else c.hackOn other := by
  unfold hackOn switchHack
  dsimp only
  rw [Table.get?_insert]
  split <;> rfl

/-- **A decision keeps a set of hacks that can be made.** -/
theorem exists_hackSet_follow {d : HackDecision} (hset : ∃ s, c.hackSet = .ok s)
    (h : c.follow d = .ok c') : ∃ s, c'.hackSet = .ok s := by
  obtain ⟨hpreset, hknown⟩ := exists_hackSet_iff.1 hset
  rw [exists_hackSet_iff]
  cases d with
  | choose preset =>
    obtain ⟨p, hp, rfl⟩ := follow_choose_eq_ok.1 h
    refine ⟨Option.isSome_iff_exists.2 ⟨p, find?_id hp⟩, fun id hid => ?_⟩
    cases hid
  | switch hack enabled =>
    obtain ⟨hhack, rfl⟩ := follow_switch_eq_ok.1 h
    refine ⟨hpreset, fun id hid => ?_⟩
    obtain ⟨e, he, rfl⟩ := List.mem_map.1 hid
    rcases Table.mem_insert he with rfl | he
    · exact hhack
    · exact hknown e.1 (List.mem_map_of_mem he)

/-! ## All decisions -/

theorem followAll_concat_eq_ok {ds : List HackDecision} {d : HackDecision} :
    c.followAll (ds ++ [d]) = .ok c' ↔
      ∃ before, c.followAll ds = .ok before ∧ before.follow d = .ok c' := by
  unfold followAll
  rw [List.foldlM_append, bind_eq_ok]
  simp only [List.foldlM_cons, List.foldlM_nil, bind_pure]

theorem hackOnAfter_choose (ds : List HackDecision) (preset hack : String) :
    c.hackOnAfter (ds ++ [.choose preset]) hack = Preset.selects preset hack := by
  simp [hackOnAfter, lastSwitch?, lastPreset?, preset?, List.findSome?_cons]

theorem hackOnAfter_switch (ds : List HackDecision) (hack other : String) (enabled : Bool) :
    c.hackOnAfter (ds ++ [.switch hack enabled]) other =
      if other = hack then enabled else c.hackOnAfter ds other := by
  have hswitch : lastSwitch? (ds ++ [.switch hack enabled]) other =
      if other = hack then some enabled else lastSwitch? ds other := by
    by_cases hother : hack = other
    · simp [lastSwitch?, preset?, switched?, hother]
    · simp [lastSwitch?, preset?, switched?, hother, Ne.symm hother]
  have hpreset : lastPreset? (ds ++ [.switch hack enabled]) = lastPreset? ds := by
    simp [lastPreset?, preset?, List.findSome?_cons]
  unfold hackOnAfter
  rw [hswitch, hpreset]
  by_cases hother : other = hack
  · rw [if_pos hother, if_pos hother]
  · rw [if_neg hother, if_neg hother]

/-- **What a configuration decides after a run** is what the last decision says. -/
theorem hackOn_followAll {ds : List HackDecision} (h : c.followAll ds = .ok c') (hack : String) :
    c'.hackOn hack = c.hackOnAfter ds hack := by
  induction ds using List.reverseRecOn generalizing c' with
  | nil =>
    obtain rfl := pure_eq_ok.1 h
    rfl
  | append_singleton ds d ih =>
    obtain ⟨before, hbefore, hd⟩ := followAll_concat_eq_ok.1 h
    cases d with
    | choose preset =>
      obtain ⟨p, hp, rfl⟩ := follow_choose_eq_ok.1 hd
      rw [hackOn_choosePreset hp, hackOnAfter_choose]
    | switch other enabled =>
      obtain ⟨-, rfl⟩ := follow_switch_eq_ok.1 hd
      rw [hackOn_switchHack, hackOnAfter_switch, ih hbefore]

theorem exists_hackSet_followAll {ds : List HackDecision} (hset : ∃ s, c.hackSet = .ok s)
    (h : c.followAll ds = .ok c') : ∃ s, c'.hackSet = .ok s := by
  induction ds using List.reverseRecOn generalizing c' with
  | nil =>
    obtain rfl := pure_eq_ok.1 h
    exact hset
  | append_singleton ds d ih =>
    obtain ⟨before, hbefore, hd⟩ := followAll_concat_eq_ok.1 h
    exact exists_hackSet_follow (ih hbefore) hd

/-- **Hacks follow the last decision.** After presets were chosen and hacks switched, the set of
hacks can still be made. It has the standard hacks in their order, unchanged but for being enabled
or not; and that is as the last switch of the hack since a preset was chosen says, or else the last
preset, or else the configuration to start with. -/
theorem hackSet_followAll {ds : List HackDecision} (hset : c.hackSet = .ok s)
    (hrun : c.followAll ds = .ok c') :
    ∃ t, c'.hackSet = .ok t ∧
      t.hacks = HackSet.standard.hacks.map fun h =>
        { h with enabled := c.hackOnAfter ds h.id } := by
  obtain ⟨t, ht⟩ := exists_hackSet_followAll ⟨s, hset⟩ hrun
  refine ⟨t, ht, (hackSet_eq_ok ht).trans (List.map_congr_left fun h _ => ?_)⟩
  rw [hackOn_followAll hrun]

/-- The standard configuration with a preset of its own and switches on top of it. -/
def switched : Config :=
  { standard with
    hacks := ⟨"minimal", .ofList [("clarify", false), ("web_backed", true)]⟩ }

/-- A switch, then a preset, then switches of which one is taken back. -/
def decisions : List HackDecision :=
  [.switch "expert_panel" true, .choose "writing", .switch "clarify" true,
    .switch "self_grade" false, .switch "clarify" false]

/-- Switches of before a choice count no more, and of those after it only the last of each hack. -/
theorem hackSet_followAll_switched :
    (∃ s, switched.hackSet = .ok s) ∧
    ∃ c, switched.followAll decisions = .ok c ∧
      ∃ t, c.hackSet = .ok t ∧ t.hacks.map (fun h => (h.id, h.enabled)) =
        [("clarify", false), ("web_backed", false), ("self_grade", false),
          ("expert_panel", false), ("devils_advocate", true)] := by
  have hset : ∃ s, switched.hackSet = .ok s := ⟨_, rfl⟩
  have hrun : ∃ c, switched.followAll decisions = .ok c := ⟨_, rfl⟩
  obtain ⟨s, hs⟩ := hset
  obtain ⟨c, hc⟩ := hrun
  obtain ⟨t, ht, hhacks⟩ := hackSet_followAll hs hc
  refine ⟨⟨s, hs⟩, c, hc, t, ht, ?_⟩
  rw [hhacks]
  decide

end Config

end CommandDesk
