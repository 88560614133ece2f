import DeviceNaming.Household.Sample
import DeviceNaming.Proofs.Household.Run

/-!
# Users do not notice each other

With a steady provider that answers at once, the answer that a user gets after any run is the one that the user
would get alone: without the commands of other users, without earlier queries, without cleaning, and with any
bounds of the embedding cache and the query caches (`Resolver.resolve_isolated`).

The two runs differ in every cache, counter and edition. What they have in common is `Agrees`: the clock, and what is
known of the user now and later.
-/

namespace DeviceNaming

attribute [local irreducible] Text.normalize Text.trimmed

/-- The resolver with other bounds of its caches. -/
def Resolver.withCaches (r : Resolver) (embeddingCache queryCache : CacheSettings) : Resolver :=
  { r with settings := { r.settings with embeddingCache, queryCache } }

namespace ResolverState

/-- Two memories have the same clock and know the same of a user, now and later. -/
structure Agrees (user : String) (st st' : ResolverState) : Prop where
  now : st'.shared.now = st.shared.now
  known : ∀ t, st.shared.now ≤ t → st'.known t user = st.known t user

variable {user : String} {st st' next next' : ResolverState}

/-- The same effect on both sides keeps the agreement. -/
theorem Agrees.step {r r' : Resolver} (H : Agrees user st st') (hp : r.embedder.Prompt)
    (hp' : r'.embedder.Prompt) (httl : r'.ttl = r.ttl) {ms : Nat} {effect effect' : String → Effect}
    (S : r.Step st next ms effect) (S' : r'.Step st' next' ms effect')
    (heffect : effect' user = effect user) : Agrees user next next' := by
  have hnow : next'.shared.now = next.shared.now := by rw [S.now_eq hp, S'.now_eq hp', H.now]
  refine ⟨hnow, fun t ht => ?_⟩
  rw [S.known user t ht, S'.known user t (hnow ▸ ht), heffect, httl, hnow,
    H.known t (Nat.le_trans S.now_le ht)]

/-- A step on one side without an effect on the user keeps the agreement. -/
theorem Agrees.step_left {r : Resolver} (H : Agrees user st st') (hp : r.embedder.Prompt)
    {effect : String → Effect} (S : r.Step st next 0 effect) (heffect : effect user = .keep) :
    Agrees user next st' := by
  have hnow : next.shared.now = st.shared.now := S.now_eq hp
  refine ⟨H.now.trans hnow.symm, fun t ht => ?_⟩
  rw [S.known user t ht, heffect]
  exact H.known t (hnow ▸ ht)

end ResolverState

namespace Command

theorem effect_withCaches (r : Resolver) (embeddingCache queryCache : CacheSettings) (user : String)
    (known : Option Contents) (cmd : Command) :
    cmd.effect (r.withCaches embeddingCache queryCache) user known = cmd.effect r user known := by
  cases cmd <;> rfl

end Command

namespace Resolver

open ResolverState

theorem run_concat (r : Resolver) (cmds : List Command) (cmd : Command) :
    r.run (cmds ++ [cmd]) = r.perform (r.run cmds) cmd := by
  rw [run, List.foldl_append]
  rfl

variable {r : Resolver}

/-- A run agrees with the run of the commands that concern the user. -/
theorem run_agrees (he : r.embedder.Steady) (hp : r.embedder.Prompt)
    (embeddingCache queryCache : CacheSettings) (user : String) (cmds : List Command) :
    Agrees user (r.run cmds)
      ((r.withCaches embeddingCache queryCache).run (cmds.filter (·.concerns user))) := by
  refine (run_induction he (P := fun cmds st => Agrees user st
    ((r.withCaches embeddingCache queryCache).run (cmds.filter (·.concerns user)))) ?_ ?_ cmds).2
  · exact ⟨rfl, fun t _ => rfl⟩
  · intro cmds cmd st next _ H S
    rw [List.filter_append, List.filter_singleton]
    cases hcmd : cmd.concerns user with
    -- the user alone does not make this step
    | false =>
      obtain ⟨helapsed, heffect⟩ :=
        Command.effect_of_not_concerns (r := r) hcmd (st.known st.shared.now user)
      rw [helapsed] at S
      rw [cond_false, List.append_nil]
      exact H.step_left hp S heffect
    | true =>
      have he' : (r.withCaches embeddingCache queryCache).embedder.Steady := he
      have hp' : (r.withCaches embeddingCache queryCache).embedder.Prompt := hp
      rw [cond_true, run_concat]
      refine H.step hp hp' rfl S (perform_spec he' (run_sound he' _) cmd) ?_
      rw [Command.effect_withCaches, H.now, H.known _ (Nat.le_refl _)]

/-- What a user is answered after any run is what the user would be answered alone. -/
theorem resolve_isolated (he : r.embedder.Steady) (hp : r.embedder.Prompt)
    (embeddingCache queryCache : CacheSettings) (cmds : List Command) (user query : String)
    (domain : Option String) (limit : Option Nat) :
    let alone := r.withCaches embeddingCache queryCache
    ∃ answer, (r.resolve user query domain limit (r.run cmds)).1 = .ok answer ∧
      (alone.resolve user query domain limit (alone.run (cmds.filter (·.concerns user)))).1 =
        .ok answer := by
  intro alone
  have he' : alone.embedder.Steady := he
  have H := run_agrees he hp embeddingCache queryCache user cmds
  refine ⟨_, (resolve_spec he (run_sound he cmds) user query domain limit).1, ?_⟩
  rw [(resolve_spec he' (run_sound he' _) user query domain limit).1, H.now, H.known _ (Nat.le_refl _)]
  rfl

/-- Two users with a device each. -/
def twoUsers : List Command := [
  .rebuild "ann" [] [Sample.wledOffice], .rebuild "ben" [] [Sample.officeLamp],
  .resolve "ben" "lamp" none none, .removeEntity "ben" "light.office_lamp", .advance 500, .cleanup]

theorem resolve_isolated_two_users :
    let r := Sample.resolver (some (.keywords []))
    let alone := r.withCaches ⟨1, some 0⟩ ⟨3, none⟩
    (r.resolve "ann" "lamp" none none (r.run twoUsers)).1.map (·.hits.map (·.entityId)) =
        .ok ["light.wled_office"] ∧
      ∃ answer, (r.resolve "ann" "lamp" none none (r.run twoUsers)).1 = .ok answer ∧
        (alone.resolve "ann" "lamp" none none (alone.run (twoUsers.filter (·.concerns "ann")))).1 =
          .ok answer :=
  ⟨by decide +kernel,
    resolve_isolated (Embedder.steady_keywords [] _) (Embedder.prompt_keywords [] _) _ _ twoUsers
      "ann" "lamp" none none⟩

end Resolver

end DeviceNaming
