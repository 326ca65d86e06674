import InlineCache.Proofs.Machine.Watched

namespace InlineCache

namespace World

variable {σ : Type} {R : Rules} {resets turns : Prop} {w w' : World σ}

private theorem Parts.loosen {R' : Rules} {s : Showing} (hR : R.Tightens R')
    (h : Parts R resets turns s w w') : Parts R' resets turns s w w' := by
  cases h with
  | mk hwrite hresult hbefore hheap hafter =>
    exact .mk (fun group key v hv => hR.writes (hwrite group key v hv)) hresult (hbefore.loosen hR) hheap
      (hafter.loosen hR)

end World

/-- Rules that let less be shown are tighter. -/
theorem Rules.showing_tightens {R : Rules} {shows : Watch → Prop} (h : ∀ p, shows p → R.shows p) :
    (R.showing shows).Tightens R :=
  ⟨id, id, id, fun {p} => h p⟩

namespace Machine

variable {σ : Type} {classed : Prop} {m : Machine σ}

theorem allows_showing {R : Rules} {a : Action σ} (ha : m.Allows R a) (shows : Watch → Prop) :
    m.Allows (R.showing shows) a := by
  cases a <;> exact ha

/-- An action changes only guards that it shows a value they did not accept at first. -/
theorem step_guards_cases (hm : m.Watched classed) {a : Action σ}
    (ha : m.HostObeys (.fitting classed) a) {c : CacheId} (hc : m.world.HasCache c) (p : Watch) :
    ((m.step a).world.cache c).guards p = (m.world.cache c).guards p ∨
      (∃ group key v, p = .write group key ∧ m.Writes a c group key v ∧
        (m.world.cache c).updateAccepts m.world.heap group key v = false) ∨
      ∃ index guards v, p = .result index ∧ m.Answers a c index guards v ∧
        guards.any (·.accepts (m.step a).world.heap v) = false := by
  have hsame (hget : (m.step a).world.caches.get? c = m.world.caches.get? c) :
      ((m.step a).world.cache c).guards p = (m.world.cache c).guards p := by
    rw [World.cache, World.cache, Table.get, Table.get, hget]
  by_cases hunit : a.WorksOnUnit
  · rcases step_parts ((Rules.fitting_cover classed).showing fun _ => False) hm.sound.linked
      hm.sound.fitted.heap (allows_showing (hm.sound.allows Handler.Worked.evolves ha) _) hunit with
      ⟨-, -, heq⟩ | ⟨hcache, hparts⟩
    · exact .inl (hsame (by rw [heq]))
    · have hlinked := (hm.sound.linked.world.cache hcache).1
      by_cases hown : c = (m.showing a).cache
      · subst hown
        rcases hparts.guards_cases hcache hlinked p with heq | ⟨group, key, v, hp, hv, haccepts⟩ |
          ⟨v, hp, hv, haccepts⟩
        · exact .inl heq
        · exact .inr (.inl ⟨group, key, v, hp, writes_of_showing hm hv, haccepts⟩)
        · exact .inr (.inr ⟨_, _, v, hp, answers_of_showing hv, haccepts⟩)
      · have hloose : World.Parts (.fitting classed) _ _ _ _ _ :=
          hparts.loosen (Rules.showing_tightens fun _ _ => trivial)
        obtain ⟨-, -, -, hothers⟩ := (hloose.works (fun _ => trivial) hcache hlinked).same
        exact .inl (hsame (hothers c hown))
  · refine .inl (hsame ?_)
    cases a with
    | addCache unit =>
      obtain ⟨cache, hget⟩ := hc
      have hne : c ≠ m.world.caches.next := fun heq => by
        rw [heq, Table.get?_next] at hget
        cases hget
      simp only [step, World.addCache]
      cases UnitCache.create unit m.world.runtime.config with
      | error e => rfl
      | ok cache' => exact Table.get?_add_of_ne _ _ hne
    | host heap zone bridges unitsMade host => rfl
    | buildStub recipe => rfl
    | teardown => rfl
    | _ => exact absurd trivial hunit

/-- What guards accept they accept at every later point. -/
theorem accepts_run (hm : m.Watched classed) {later : List (Action σ)}
    (hlater : m.Obeys (.fitting classed) later) {c : CacheId} {p : Watch} {v : Value}
    (hv : v.ExistsIn m.world.heap) (haccepts : (m.world.cache c).accepts m.world.heap p v = true) :
    ((m.run later).world.cache c).accepts (m.run later).world.heap p v = true := by
  obtain ⟨-, hgrows, hwidens⟩ := run_watched hm hlater
  have hc := World.hasCache_of_accepts haccepts
  obtain ⟨-, hcovers⟩ := hwidens c p hc ((hm.caches.cache hc).one p)
  rw [UnitCache.accepts, GuardList.accepts_grows hgrows hv]
  exact hcovers m.world.heap v haccepts

/-- What a monitored entry answered its guards accept, unless there was a failure. -/
theorem accepts_of_answers (hm : m.Watched classed) {a : Action σ}
    (ha : m.HostObeys (.fitting classed) a) {c : CacheId} {index : Nat} {guards : List TypeGuard}
    {v : Value} (hanswers : m.Answers a c index guards v)
    (hmonitored : ((m.world.cache c).site index).kind.isMonitored = true)
    (hv : v ≠ .magic .optimizedOut) :
    ((m.step a).world.cache c).accepts (m.step a).world.heap (.result index) v = true ∨
      (m.world.attachEnv c).failures < ((m.step a).world.attachEnv c).failures := by
  have hat := hanswers.at hm.sound.linked
  have hwatched := hm.caches.cache hat.hasCache
  have hmonitor : ((m.world.cache c).entry index).monitor.isSome = true := by
    rw [hwatched.monitored index hat.lt, hmonitored]
  have hcovered : ∀ h v, guards.any (·.accepts h v) = true →
      (m.world.cache c).accepts h (.result index) v = true := by
    cases hanswers with
    | use hown hbegin => exact fun h v hv => by rw [← hat.accepts_monitorGuards]; exact hv
    | ret hcalls => exact (hm.calls _ (by rw [hcalls]; exact List.mem_cons_self)).covered
  have hunit : a.WorksOnUnit := by cases hanswers <;> trivial
  obtain ⟨write, hshowing⟩ := showing_of_answers hm hanswers hmonitored
  have hparts := step_parts (Rules.fitting_cover classed) hm.sound.linked hm.sound.fitted.heap
    (hm.sound.allows Handler.Worked.evolves ha) hunit
  rw [hshowing] at hparts
  rcases hparts with ⟨-, hnone, -⟩ | ⟨-, hparts⟩
  · cases hnone
  · exact hparts.accepts (s := ⟨c, index, guards, write, some v⟩) hat.linked (hwatched.one _) hmonitor
      hcovered rfl hv

/-- In every reachable state, in the middle of calls as well, the type guards of a unit accept all that
they ever accepted, were changed by nothing but values that they did not accept, and accept what they
were shown. -/
theorem guards_widen (hm : m.Reached (.fitting False)) (c : CacheId) :
    -- what is accepted once is accepted at every later point
    (∀ (p : Watch) (v : Value) (later : List (Action σ)), m.Obeys (.fitting False) later →
      v.ExistsIn m.world.heap → (m.world.cache c).accepts m.world.heap p v = true →
      ((m.run later).world.cache c).accepts (m.run later).world.heap p v = true) ∧
    -- the guards over results change only for an answer that they did not accept when the use began
    (∀ (a : Action σ) (index : Nat), m.HostObeys (.fitting False) a → m.world.HasCache c →
      ((m.step a).world.cache c).guards (.result index) ≠ (m.world.cache c).guards (.result index) →
      ∃ guards v, m.Answers a c index guards v ∧
        guards.any (·.accepts (m.step a).world.heap v) = false) ∧
    -- the guards over writes change only for a write that they did not accept before the action
    (∀ (a : Action σ) (group : GroupId) (key : PropertyKey), m.HostObeys (.fitting False) a →
      m.world.HasCache c → ((m.step a).world.cache c).guards (.write group key) ≠
        (m.world.cache c).guards (.write group key) →
      ∃ v, m.Writes a c group key v ∧
        (m.world.cache c).accepts m.world.heap (.write group key) v = false) ∧
    -- what a monitored entry answers is accepted from then on, unless there was a failure
    ∀ (a : Action σ) (index : Nat) (guards : List TypeGuard) (v : Value) (later : List (Action σ)),
      m.HostObeys (.fitting False) a → m.Answers a c index guards v →
      ((m.world.cache c).site index).kind.isMonitored = true → v ≠ .magic .optimizedOut →
      ((m.step a).world.attachEnv c).failures = (m.world.attachEnv c).failures →
      v.ExistsIn (m.step a).world.heap → (m.step a).Obeys (.fitting False) later →
      (((m.step a).run later).world.cache c).accepts ((m.step a).run later).world.heap
        (.result index) v = true := by
  have hwatched := hm.watched
  refine ⟨fun p v later hlater hv haccepts => accepts_run hwatched hlater hv haccepts,
    fun a index ha hc hne => ?_, fun a group key ha hc hne => ?_,
    fun a index guards v later ha hanswers hmonitored hv hfailures hexists hlater => ?_⟩
  · rcases step_guards_cases hwatched ha hc (.result index) with heq | ⟨_, _, _, hp, _⟩ |
      ⟨_, guards, v, hp, hanswers, haccepts⟩
    · exact absurd heq hne
    · cases hp
    · cases hp
      exact ⟨guards, v, hanswers, haccepts⟩
  · rcases step_guards_cases hwatched ha hc (.write group key) with heq |
      ⟨_, _, v, hp, hwrites, haccepts⟩ | ⟨_, _, _, hp, _⟩
    · exact absurd heq hne
    · cases hp
      exact ⟨v, hwrites, by rw [← UnitCache.updateAccepts_eq, haccepts]⟩
    · cases hp
  · rcases accepts_of_answers hwatched ha hanswers hmonitored hv with haccepts | hlt
    · exact accepts_run (step_watched hwatched ha) hlater hexists haccepts
    · rw [hfailures] at hlt
      exact absurd hlt (Int.lt_irrefl _)

/-- An entry that has seen an integer accepts it after a string as well, and then accepts the string. -/
theorem integer_and_string_accepted :
    let seen : List (Action Unit) :=
      [.addCache ⟨1, "f", 0, false, 0, #[.getAliasedVar 0], #[]⟩, .use 1 ⟨1, 0⟩ (.unary (.int32 5))]
    let text : Action Unit := .use 1 ⟨1, 0⟩ (.unary (.string "a"))
    let m := ((initial .standard (fun _ _ => none) ()).run seen).run [text]
    (m.world.cache 1).accepts m.world.heap (.result 0) (.int32 5) = true ∧
      (m.world.cache 1).accepts m.world.heap (.result 0) (.string "a") = true := by
  intro seen text m
  have hreached : ((initial .standard (fun _ _ => none) ()).run seen).Reached (.fitting False) :=
    ⟨.standard, fun _ _ => none, (), seen, ⟨trivial, trivial, trivial⟩, rfl⟩
  obtain ⟨hlater, -, -, hanswered⟩ := guards_widen hreached 1
  have hbegin : (World.begin 1 ⟨1, 0⟩ (.unary (.string "a"))
      ((initial .standard (fun _ _ => none) ()).run seen).world).answer? =
        some (.string "a") := by decide +kernel
  exact ⟨hlater (.result 0) (.int32 5) [text] ⟨trivial, trivial⟩ (by rintro id ⟨⟩) (by decide +kernel),
    hanswered text 0 _ (.string "a") [] trivial
      (.use (by decide +kernel) (Use.eq_answered_of_answer? hbegin)) (by decide +kernel) (by simp)
      (by decide +kernel) (by rintro id ⟨⟩) trivial⟩

end Machine

end InlineCache
