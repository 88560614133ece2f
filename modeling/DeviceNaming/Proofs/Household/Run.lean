import DeviceNaming.Proofs.Household.Published

/-!
# Runs of a resolver

A run is any list of commands for any users. `Command.effect` says what a command does to what the resolver
knows of one user, from what it knew of this user alone. `Resolver.perform_spec` is the one lemma about single
commands: each keeps the memory sound and has exactly this effect.
-/

namespace DeviceNaming

attribute [local irreducible] Text.normalize Text.trimmed

/-- What is asked of a resolver. -/
inductive Command where
  | rebuild (user : String) (areas : List AreaRecord) (entities : List EntityRecord)
  | upsertEntity (user : String) (record : EntityRecord)
  | removeEntity (user entityId : String)
  | upsertArea (user : String) (record : AreaRecord)
  | invalidate (user : String)
  | cleanup
  | resolve (user query : String) (domain : Option String) (limit : Option Nat)
  | advance (ms : Nat)

namespace Resolver

def perform (r : Resolver) (st : ResolverState) : Command → ResolverState
  | .rebuild user areas entities => (r.rebuild user areas entities st).2
  | .upsertEntity user record => (r.upsertEntity user record st).2
  | .removeEntity user entityId => (removeEntity user entityId st).2
  | .upsertArea user record => (r.upsertArea user record st).2
  | .invalidate user => (st.invalidate user).2
  | .cleanup => st.cleanup.2
  | .resolve user query domain limit => (r.resolve user query domain limit st).2
  | .advance ms => st.advance ms

/-- The memory after commands from the start. -/
def run (r : Resolver) (cmds : List Command) : ResolverState := cmds.foldl r.perform r.start

end Resolver

/-- What becomes of the household of a user: nothing, it is dropped, or another one is published. -/
inductive Effect where
  | keep
  | drop
  | put (c : Contents)

/-- What is known at a time after an effect. -/
def Effect.after (ttl now : Nat) (known : Option Contents) (t : Nat) : Effect → Option Contents
  | keep => known
  | drop => none
  | put c => if ttl < t - now then none else some c

def Effect.result (known : Option Contents) : Effect → Option Contents
  | keep => known
  | drop => none
  | put c => some c

namespace Command

/-- The time that a command lets pass. -/
def elapsed : Command → Nat
  | advance ms => ms
  | _ => 0

/-- The publication of changed contents, if there are any to change. -/
def changing (known : Option Contents) (change : Contents → Contents) : Effect :=
  match known with
  | none => .keep
  | some c => .put (change c)

/-- The publication of the contents without a device, if the device is known. -/
def removing (known : Option Contents) (entityId : String) : Effect :=
  match known with
  | none => .keep
  | some c => if c.entities.contains entityId then .put (c.without entityId) else .keep

theorem changing_result (known : Option Contents) (change : Contents → Contents) :
    (changing known change).result known = known.map change := by
  cases known <;> rfl

theorem removing_result (known : Option Contents) (entityId : String) :
    (removing known entityId).result known = known.map (·.without entityId) := by
  cases known with
  | none => rfl
  | some c =>
    rw [removing]
    split
    · rfl
    · rename_i hin
      rw [Effect.result, Option.map_some, Contents.without, Roster.erase_eq_self]
      simpa [Roster.contains] using hin

/-- What a command does for a user of whom something is known. -/
def effect (r : Resolver) (user : String) (known : Option Contents) : Command → Effect
  | rebuild u areas entities =>
      if u = user then .put (.ofRecords r.embedder r.settings.semanticThreshold areas entities) else .keep
  | upsertEntity u record => if u = user then changing known (·.withEntity r.embedder record) else .keep
  | upsertArea u record => if u = user then changing known (·.withArea r.embedder record) else .keep
  | removeEntity u entityId => if u = user then removing known entityId else .keep
  | invalidate u => if u = user then .drop else .keep
  | cleanup | resolve _ _ _ _ | advance _ => .keep

/-- Does a command change the household of a user, or the clock? -/
def concerns (user : String) : Command → Bool
  | rebuild u _ _ | upsertEntity u _ | removeEntity u _ | upsertArea u _ | invalidate u => u = user
  | advance _ => true
  | cleanup | resolve _ _ _ _ => false

/-- A command that does not concern a user takes no time and does nothing for the user. -/
theorem effect_of_not_concerns {r : Resolver} {user : String} {cmd : Command}
    (h : cmd.concerns user = false) (known : Option Contents) :
    cmd.elapsed = 0 ∧ cmd.effect r user known = .keep := by
  cases cmd with
  | cleanup => exact ⟨rfl, rfl⟩
  | resolve => exact ⟨rfl, rfl⟩
  | advance => cases h
  | rebuild | upsertEntity | removeEntity | upsertArea | invalidate =>
    exact ⟨rfl, if_neg (of_decide_eq_false h)⟩

end Command

variable {r : Resolver} {st : ResolverState}

/-- A step keeps the memory sound, does not set the clock back, and has an effect on each user. -/
structure Resolver.Step (r : Resolver) (st st' : ResolverState) (ms : Nat) (effect : String → Effect) :
    Prop where
  sound : st'.Sound r
  now_le : st.shared.now ≤ st'.shared.now
  now_eq : r.embedder.Prompt → st'.shared.now = st.shared.now + ms
  known : ∀ user t, st'.shared.now ≤ t →
    st'.known t user = (effect user).after r.ttl st'.shared.now (st.known t user) t

namespace Resolver

open ResolverState

theorem Step.result_of_known {st' : ResolverState} {ms : Nat} {effect : String → Effect}
    (S : r.Step st st' ms effect) {user : String} {c : Contents}
    (hc : st'.known st'.shared.now user = some c) :
    (effect user).result (st.known st.shared.now user) = some c := by
  rw [S.known user _ (Nat.le_refl _)] at hc
  cases heffect : effect user with
  | keep =>
    rw [heffect] at hc
    exact known_mono S.now_le hc
  | drop =>
    rw [heffect] at hc
    cases hc
  | put c' =>
    rw [heffect, Effect.after, Nat.sub_self, if_neg (Nat.not_lt_zero _)] at hc
    exact hc

theorem Step.current (H : st.Sound r) (user : String) {effect : String → Effect}
    (heffect : ∀ v, effect v = .keep) : r.Step st (st.current user false).2 0 effect := by
  refine ⟨H.current user, Nat.le_refl _, fun _ => rfl, fun v t ht => ?_⟩
  rw [heffect]
  exact known_current st ht user v

/-- Publishing a household after some lookups. -/
theorem Step.publish (H : st.Sound r) {s : Shared} (hleads : st.shared.LeadsTo r.embedder s) {h : Household}
    (hh : h.Sound r.embedder) (user : String) :
    r.Step st ({ st with shared := s }.publish user h).2 0 fun v =>
      if user = v then .put h.contents else .keep := by
  have H' := H.withShared (hleads.reached H.reached)
  refine ⟨H'.publish hh user, hleads.now_le, hleads.now_eq, fun v t ht => ?_⟩
  rw [H'.known_publish]
  split <;> rfl

/-- A step from the memory after a lookup is a step from the memory before it. -/
theorem Step.of_current {user : String} {st' : ResolverState} {ms : Nat} {effect : String → Effect}
    (S : r.Step (st.current user false).2 st' ms effect) : r.Step st st' ms effect := by
  refine ⟨S.sound, S.now_le, S.now_eq, fun v t ht => ?_⟩
  rw [S.known v t ht, known_current st (Nat.le_trans S.now_le ht)]

theorem effect_eq {user : String} {known : String → Option Contents} (f : Option Contents → Effect)
    {effect : Effect} (h : f (known user) = effect) :
    (fun v => if user = v then f (known v) else .keep) = fun v => if user = v then effect else .keep := by
  funext v
  split
  · rename_i hv
    rw [← hv, h]
  · rfl

theorem rebuild_spec (he : r.embedder.Steady) (H : st.Sound r) (user : String) (areas : List AreaRecord)
    (entities : List EntityRecord) :
    r.Step st (r.rebuild user areas entities st).2 0 fun v =>
      (Command.rebuild user areas entities).effect r v (st.known st.shared.now v) := by
  have hbuild := Household.build_spec he (H.reached.coherent he) r.settings areas entities
  rcases hp : Household.build r.embedder r.settings areas entities st.shared with ⟨h, s⟩
  rw [hp] at hbuild
  have S := Step.publish H hbuild.leads hbuild.sound user
  rw [hbuild.contents] at S
  have hrebuild : r.rebuild user areas entities st = { st with shared := s }.publish user h := by
    rw [rebuild, hp]
  rw [hrebuild]
  exact S

/-- An update changes the contents of the user's household and of no other. -/
theorem update_spec (he : r.embedder.Steady) (H : st.Sound r) (user : String)
    {change : Household → Shared → Household × Shared} {onContents : Contents → Contents}
    (hchange : ∀ {h : Household} {s : Shared}, h.Sound r.embedder → s.Coherent r.embedder →
      Household.Yields r.embedder (onContents h.contents) s (change h s)) :
    r.Step st (update user change st).2 0 fun v =>
      if user = v then Command.changing (st.known st.shared.now v) onContents else .keep := by
  rcases hc : st.current user false with ⟨found, st'⟩
  have hst' : (st.current user false).2 = st' := congrArg Prod.snd hc
  -- without a household there is nothing to change; otherwise a copy is changed and published
  rcases H.current_cases user with ⟨hnone, hknown⟩ | ⟨n, h, hsome, -, hh, hknown⟩
  · rw [hc] at hnone
    cases hnone
    have hkeep : Command.changing (st.known st.shared.now user) onContents = .keep := by
      rw [hknown]
      rfl
    rw [update, hc, effect_eq (Command.changing · onContents) hkeep]
    exact hst' ▸ .current H user fun v => ite_self _
  · rw [hc] at hsome
    cases hsome
    have hyields := hchange hh.fork (H.reached.coherent he)
    rcases hp : change h.fork st.shared with ⟨h', s⟩
    rw [hp] at hyields
    have hput : Command.changing (st.known st.shared.now user) onContents = .put h'.contents := by
      rw [hknown, hyields.contents]
      rfl
    rw [update, hc, effect_eq (Command.changing · onContents) hput]
    subst hst'
    have hshared : (st.current user false).2.shared = st.shared := rfl
    simp only [hshared, hp]
    exact (Step.publish (H.current user) hyields.leads hyields.sound user).of_current

theorem removeEntity_spec (H : st.Sound r) (user entityId : String) :
    r.Step st (removeEntity user entityId st).2 0 fun v =>
      if user = v then Command.removing (st.known st.shared.now v) entityId else .keep := by
  rcases hc : st.current user false with ⟨found, st'⟩
  have hst' : (st.current user false).2 = st' := congrArg Prod.snd hc
  rcases H.current_cases user with ⟨hnone, hknown⟩ | ⟨n, h, hsome, -, hh, hknown⟩
  · rw [hc] at hnone
    cases hnone
    have hkeep : Command.removing (st.known st.shared.now user) entityId = .keep := by
      rw [hknown]
      rfl
    rw [removeEntity, hc, effect_eq (Command.removing · entityId) hkeep]
    exact hst' ▸ .current H user fun v => ite_self _
  · rw [hc] at hsome
    cases hsome
    rw [removeEntity, hc]
    -- only a device of the household leads to a publication
    by_cases hin : h.entities.entries.contains entityId = true
    · obtain ⟨hsound, hcontents⟩ := hh.fork.removeEntity entityId
      have hput : Command.removing (st.known st.shared.now user) entityId =
          .put (h.fork.contents.without entityId) := by
        rw [hknown]
        exact if_pos hin
      rw [effect_eq (Command.removing · entityId) hput, ← hcontents]
      simp only [if_pos hin]
      subst hst'
      exact (Step.publish (H.current user) (.refl _) hsound user).of_current
    · have hkeep : Command.removing (st.known st.shared.now user) entityId = .keep := by
        rw [hknown]
        exact if_neg hin
      rw [effect_eq (Command.removing · entityId) hkeep]
      simp only [if_neg hin]
      exact hst' ▸ .current H user fun v => ite_self _

/-- The answer to a query, from what is known of the user. -/
def answer (r : Resolver) (known : Option Contents) (query : String) (domain : Option String)
    (limit : Option Nat) : Resolution :=
  match known with
  | none => .nothing
  | some c => c.resolution r.embedder query domain (limit.getD r.defaultLimit)

/-- A query is always answered, from what is known of the user, and changes nobody's household. -/
theorem resolve_spec (he : r.embedder.Steady) (H : st.Sound r) (user query : String)
    (domain : Option String) (limit : Option Nat) :
    (r.resolve user query domain limit st).1 =
        .ok (r.answer (st.known st.shared.now user) query domain limit) ∧
      r.Step st (r.resolve user query domain limit st).2 0 fun _ => .keep := by
  rcases hc : st.current user false with ⟨found, st'⟩
  have hst' : (st.current user false).2 = st' := congrArg Prod.snd hc
  have H' : st'.Sound r := hst' ▸ H.current user
  rcases H.current_cases user with ⟨hnone, hknown⟩ | ⟨n, h, hsome, hn, hh, hknown⟩
  · rw [hc] at hnone
    cases hnone
    rw [resolve, hc, hknown]
    subst hst'
    exact ⟨rfl, .current H user fun _ => rfl⟩
  · rw [hc] at hsome
    cases hsome
    obtain ⟨x, s, hresolve, hx, hcontents, hleads⟩ := hh.resolveIn_spec he (H'.reached.coherent he)
      query domain (limit.getD r.defaultLimit)
    rw [resolve, hc, hknown]
    simp only [hresolve]
    subst hst'
    refine ⟨rfl, (?_ : r.Step (st.current user false).2 _ 0 _).of_current⟩
    -- the query leaves its rankings in the edition that it read, whose contents stay the same
    refine ⟨H'.note hn hx (hleads.reached H'.reached), hleads.now_le, hleads.now_eq, fun v t _ => ?_⟩
    exact known_note (st.current user false).2 hn hcontents s t v

/-- A command keeps the memory sound and has its effect on every user. -/
theorem perform_spec (he : r.embedder.Steady) (H : st.Sound r) (cmd : Command) :
    r.Step st (r.perform st cmd) cmd.elapsed fun user => cmd.effect r user (st.known st.shared.now user) := by
  cases cmd with
  | rebuild user areas entities => exact rebuild_spec he H user areas entities
  | upsertEntity user record => exact update_spec he H user fun hh hs => hh.addEntity he hs record
  | upsertArea user record => exact update_spec he H user fun hh hs => hh.addArea he hs record
  | removeEntity user entityId => exact removeEntity_spec H user entityId
  | invalidate user =>
    refine ⟨H.invalidate user, Nat.le_refl _, fun _ => rfl, fun v t _ => ?_⟩
    refine (known_invalidate user v t).trans ?_
    rw [Command.effect]
    split <;> rfl
  | cleanup => exact ⟨H.cleanup, Nat.le_refl _, fun _ => rfl, fun v t ht => H.known_cleanup ht v⟩
  | resolve user query domain limit => exact (resolve_spec he H user query domain limit).2
  | advance ms =>
    exact ⟨H.withShared (.advance ms H.reached), Nat.le_add_right .., fun _ => rfl, fun _ _ _ => rfl⟩

/-- Whatever holds at the start and is kept by every command holds after every run. -/
theorem run_induction (he : r.embedder.Steady) {P : List Command → ResolverState → Prop}
    (hstart : P [] r.start)
    (hstep : ∀ cmds cmd {st st' : ResolverState}, st.Sound r → P cmds st →
      r.Step st st' cmd.elapsed (fun user => cmd.effect r user (st.known st.shared.now user)) →
      P (cmds ++ [cmd]) st') (cmds : List Command) :
    (r.run cmds).Sound r ∧ P cmds (r.run cmds) := by
  -- the induction is on the commands that are still to come, after any that are done
  suffices hfold : ∀ done cmds st, st.Sound r → P done st →
      (cmds.foldl r.perform st).Sound r ∧ P (done ++ cmds) (cmds.foldl r.perform st) from
    hfold [] cmds r.start (sound_start r) hstart
  intro done cmds
  induction cmds generalizing done with
  | nil =>
    intro st H hP
    rw [List.append_nil]
    exact ⟨H, hP⟩
  | cons cmd cmds ih =>
    intro st H hP
    have S := perform_spec he H cmd
    have hrest := ih (done ++ [cmd]) _ S.sound (hstep done cmd H hP S)
    rw [List.append_assoc, List.singleton_append] at hrest
    exact hrest

theorem run_sound (he : r.embedder.Steady) (cmds : List Command) : (r.run cmds).Sound r :=
  (run_induction (P := fun _ _ => True) he trivial (fun _ _ _ _ _ _ _ => trivial) cmds).1

end Resolver

end DeviceNaming
