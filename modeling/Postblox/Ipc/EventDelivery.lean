import Postblox.Ipc.Events

/-!
# Nothing published is lost in silence

From the hub to the mailbox: every channel holds what was published on its topic, and what
a forwarder has posted accounts for it from the moment of the subscription. Together with
the order between the mailbox and the client this says what a client that keeps up gets.
-/
namespace Postblox.Ipc

open Json (Value Data)
open Lib Lib.Machine

namespace Hub

variable {capacity : Nat} {hub : Hub}

/-- Every channel holds its log. -/
structure Sound (capacity : Nat) (hub : Hub) : Prop where
  holds : ∀ topic c, hub.channels topic = some c → c.Holds capacity (hub.log topic)
  closed : ∀ topic, hub.channels topic = none → hub.log topic = []

theorem publish_cases (capacity : Nat) (hub : Hub) (topic : Topic) (data : Data) :
    (hub.channels topic = none ∧ hub.publish capacity topic data = hub) ∨
    ∃ c, hub.channels topic = some c ∧ hub.publish capacity topic data =
      ⟨Function.update hub.channels topic (some (c.send capacity data)),
        Function.update hub.log topic (hub.log topic ++ [data])⟩ := by
  unfold publish
  cases hub.channels topic with
  | none => exact .inl ⟨rfl, rfl⟩
  | some c => exact .inr ⟨c, rfl, rfl⟩

theorem Sound.publish (h : hub.Sound capacity) (hcapacity : 0 < capacity) (topic : Topic)
    (data : Data) : (hub.publish capacity topic data).Sound capacity := by
  rcases publish_cases capacity hub topic data with ⟨-, heq⟩ | ⟨c₀, hc₀, heq⟩
  · rw [heq]
    exact h
  · rw [heq]
    refine ⟨fun topic' c hc => ?_, fun topic' hnone => ?_⟩ <;> by_cases htopic : topic' = topic
    · subst htopic
      simp only [Function.update_self, Option.some.injEq] at hc ⊢
      rw [← hc]
      exact (h.holds topic' c₀ hc₀).send hcapacity data
    · simp only [Function.update_of_ne htopic] at hc ⊢
      exact h.holds topic' c hc
    · subst htopic
      simp at hnone
    · simp only [Function.update_of_ne htopic] at hnone ⊢
      exact h.closed topic' hnone

/-- A publish puts the value behind what is there. -/
theorem log_publish (hub : Hub) (topic : Topic) (data : Data) (topic' : Topic) :
    ∃ later, (hub.publish capacity topic data).log topic' = hub.log topic' ++ later := by
  rcases publish_cases capacity hub topic data with ⟨-, heq⟩ | ⟨c, -, heq⟩
  · exact ⟨[], by rw [heq, List.append_nil]⟩
  · rw [heq]
    by_cases htopic : topic' = topic
    · subst htopic
      exact ⟨[data], Function.update_self ..⟩
    · exact ⟨[], by simp [Function.update_of_ne htopic]⟩

theorem isSome_publish {topic topic' : Topic} (data : Data)
    (hopen : (hub.channels topic').isSome = true) :
    ((hub.publish capacity topic data).channels topic').isSome = true := by
  rcases publish_cases capacity hub topic data with ⟨-, heq⟩ | ⟨c, -, heq⟩
  · rw [heq]
    exact hopen
  · rw [heq]
    by_cases htopic : topic' = topic
    · simp [htopic]
    · simpa [Function.update_of_ne htopic] using hopen

theorem log_openTopic (hub : Hub) (topic : Topic) : (hub.openTopic topic).log = hub.log := by
  unfold openTopic
  split <;> rfl

/-- The topic is open now, and every other channel is as it was. -/
theorem channels_openTopic (hub : Hub) (topic topic' : Topic) :
    (hub.openTopic topic).channels topic' = hub.channels topic' ∨
      (topic' = topic ∧ hub.channels topic = none ∧
        (hub.openTopic topic).channels topic' = some .empty) := by
  unfold openTopic
  cases hopen : hub.channels topic with
  | some c => exact .inl rfl
  | none =>
    by_cases htopic : topic' = topic
    · subst htopic
      exact .inr ⟨rfl, rfl, Function.update_self ..⟩
    · exact .inl (Function.update_of_ne htopic ..)

theorem isSome_openTopic (hub : Hub) (topic : Topic) :
    ((hub.openTopic topic).channels topic).isSome = true := by
  unfold openTopic
  cases hopen : hub.channels topic with
  | some c => simp [hopen]
  | none => simp

theorem Sound.openTopic (h : hub.Sound capacity) (topic : Topic) :
    (hub.openTopic topic).Sound capacity := by
  refine ⟨fun topic' c hc => ?_, fun topic' hnone => ?_⟩ <;> rw [log_openTopic] <;>
    rcases channels_openTopic hub topic topic' with hsame | ⟨rfl, hclosed, hempty⟩
  · exact h.holds topic' c (hsame ▸ hc)
  · rw [hempty] at hc
    rw [← Option.some.inj hc, h.closed topic' hclosed]
    exact holds_empty capacity
  · exact h.closed topic' (hsame ▸ hnone)
  · exact h.closed topic' hclosed

theorem tail_eq (h : hub.Sound capacity) {topic : Topic}
    (hopen : (hub.channels topic).isSome = true) : hub.tail topic = (hub.log topic).length := by
  obtain ⟨c, hc⟩ := Option.isSome_iff_exists.mp hopen
  rw [tail, hc]
  exact (h.holds topic c hc).sent_eq

end Hub

namespace EventSystem

variable {capacity : Nat} {s t : EventSystem} {a : EventAction} {acts : List EventAction}

/-- What the mailbox took from a subscription. -/
def postedFor (s : EventSystem) (sub : UInt64) : List Event := s.posted.filter (·.sub = sub)

/-- What a forwarder has got accounts for its topic from where it started, and what it has
posted is that, up to the payload in hand. -/
structure Delivers (s : EventSystem) (f : Forwarder) : Prop where
  opened : (s.hub.channels f.topic).isSome = true
  start_le : f.start ≤ f.cursor
  cursor_le : f.cursor ≤ (s.hub.log f.topic).length
  accounts : Accounts f.got (stretch (s.hub.log f.topic) f.start f.cursor)
  posts : f.got.map eventData = (s.postedFor f.sub).map Event.data ++ f.held.toList
  topics : ∀ e ∈ s.postedFor f.sub, e.topic = f.topic.asStr
  older : f.sub.toNat < s.connection.nextSub.toNat

/-- `n` bounds the steps so far, and with them the ids. -/
structure Delivering (capacity n : Nat) (s : EventSystem) : Prop where
  sound : s.hub.Sound capacity
  delivers : ∀ (i : Nat) (f : Forwarder), s.forwarders[i]? = some f → s.Delivers f
  distinct : ∀ (i j : Nat) (f g : Forwarder), s.forwarders[i]? = some f →
    s.forwarders[j]? = some g → f.sub = g.sub → i = j
  older : ∀ e ∈ s.posted, e.sub.toNat < s.connection.nextSub.toNat
  count : s.connection.nextSub.toNat ≤ n + 1

theorem Delivers.grow {f : Forwarder} (h : s.Delivers f) {hub : Hub} {connection : Connection}
    (hopened : (hub.channels f.topic).isSome = true)
    (hlog : ∃ later, hub.log f.topic = s.hub.log f.topic ++ later)
    (hids : s.connection.nextSub.toNat ≤ connection.nextSub.toNat) (taken : List Event)
    (forwarders : List Forwarder) :
    Delivers { s with hub, connection, taken, forwarders } f where
  opened := hopened
  start_le := h.start_le
  cursor_le := by
    obtain ⟨later, hlater⟩ := hlog
    show f.cursor ≤ (hub.log f.topic).length
    rw [hlater, List.length_append]
    exact Nat.le_add_right_of_le h.cursor_le
  accounts := by
    obtain ⟨later, hlater⟩ := hlog
    show Accounts f.got (stretch (hub.log f.topic) f.start f.cursor)
    rw [hlater, stretch_append h.cursor_le]
    exact h.accounts
  posts := h.posts
  topics := h.topics
  older := h.older.trans_le hids

/-- One more payload in hand. -/
theorem Delivers.receive {f : Forwarder} (h : s.Delivers f) (hheld : f.held = none)
    {c : Channel Data} (hholds : c.Holds capacity (s.hub.log f.topic)) {r : Received Data × Nat}
    (hr : c.recv f.cursor = some r) (forwarders : List Forwarder) :
    Delivers { s with forwarders } (f.receive r) := by
  obtain ⟨hless, hle, haccounts⟩ := accounts_recv hholds hr
  refine ⟨h.opened, h.start_le.trans hless.le, hle, ?_, ?_, h.topics, h.older⟩
  · have hall := haccounts h.accounts
    rwa [stretch_trans _ h.start_le hless.le] at hall
  · show (f.got ++ [r.1]).map eventData = (s.postedFor f.sub).map Event.data ++ [eventData r.1]
    rw [List.map_append, h.posts, hheld, Option.toList_none, List.append_nil]
    rfl

theorem postedFor_snoc (posted : List Event) (e : Event) (sub : UInt64) :
    (posted ++ [e]).filter (·.sub = sub) =
      posted.filter (·.sub = sub) ++ if e.sub = sub then [e] else [] := by
  rw [List.filter_append]
  by_cases hsub : e.sub = sub <;> simp [hsub]

/-- The payload in hand goes into the mailbox. -/
theorem Delivers.release {f : Forwarder} (h : s.Delivers f) {data : Data} (hheld : f.held = some data)
    {connection : Connection} (hids : connection.nextSub = s.connection.nextSub)
    (forwarders : List Forwarder) :
    Delivers { s with connection, forwarders, posted := s.posted ++ [f.event data] }
      f.release where
  opened := h.opened
  start_le := h.start_le
  cursor_le := h.cursor_le
  accounts := h.accounts
  posts := by
    have hown : (f.event data).sub = f.sub := rfl
    show f.got.map eventData =
      ((s.posted ++ [f.event data]).filter (·.sub = f.sub)).map Event.data ++ []
    rw [postedFor_snoc, if_pos hown, List.map_append, List.append_nil, h.posts, hheld]
    rfl
  topics := by
    intro e he
    have hmem : e ∈ (s.posted ++ [f.event data]).filter (·.sub = f.sub) := he
    have hown : (f.event data).sub = f.sub := rfl
    rw [postedFor_snoc, if_pos hown] at hmem
    rcases List.mem_append.mp hmem with hmem | hmem
    · exact h.topics e hmem
    · rw [List.mem_singleton.mp hmem]
      rfl
  older := by
    show f.sub.toNat < connection.nextSub.toNat
    rw [hids]
    exact h.older

/-- Another forwarder posts. -/
theorem Delivers.post_other {f : Forwarder} (h : s.Delivers f) {e : Event} (hother : e.sub ≠ f.sub)
    {connection : Connection} (hids : connection.nextSub = s.connection.nextSub)
    (forwarders : List Forwarder) :
    Delivers { s with connection, forwarders, posted := s.posted ++ [e] } f where
  opened := h.opened
  start_le := h.start_le
  cursor_le := h.cursor_le
  accounts := h.accounts
  posts := by
    show f.got.map eventData =
      ((s.posted ++ [e]).filter (·.sub = f.sub)).map Event.data ++ f.held.toList
    rw [postedFor_snoc, if_neg hother, List.append_nil, h.posts]
    rfl
  topics := by
    intro e' he
    have hmem : e' ∈ (s.posted ++ [e]).filter (·.sub = f.sub) := he
    rw [postedFor_snoc, if_neg hother, List.append_nil] at hmem
    exact h.topics e' hmem
  older := by
    show f.sub.toNat < connection.nextSub.toNat
    rw [hids]
    exact h.older

theorem Delivers.congr {f : Forwarder} (h : s.Delivers f) (hhub : t.hub = s.hub)
    (hposted : t.posted = s.posted)
    (hids : s.connection.nextSub.toNat ≤ t.connection.nextSub.toNat) : t.Delivers f where
  opened := hhub ▸ h.opened
  start_le := h.start_le
  cursor_le := hhub ▸ h.cursor_le
  accounts := hhub ▸ h.accounts
  posts := by
    unfold postedFor
    rw [hposted]
    exact h.posts
  topics := by
    unfold postedFor
    rw [hposted]
    exact h.topics
  older := h.older.trans_le hids

variable {n : Nat}

theorem Delivering.publish (h : Delivering capacity n s) (hcapacity : 0 < capacity) (topic : Topic)
    (data : Data) :
    Delivering capacity (n + 1) { s with hub := s.hub.publish capacity topic data } where
  sound := h.sound.publish hcapacity topic data
  delivers := fun i f hf => (h.delivers i f hf).grow
    (Hub.isSome_publish data (h.delivers i f hf).opened) (Hub.log_publish s.hub topic data f.topic)
    le_rfl s.taken s.forwarders
  distinct := h.distinct
  older := h.older
  count := h.count.trans (by omega)

theorem Delivering.recv (h : Delivering capacity n s) {i : Nat} {f : Forwarder} {c : Channel Data}
    {r : Received Data × Nat} (hf : s.forwarders[i]? = some f) (hheld : f.held = none)
    (hc : s.hub.channels f.topic = some c) (hr : c.recv f.cursor = some r) :
    Delivering capacity (n + 1) { s with forwarders := s.forwarders.set i (f.receive r) } := by
  have hrow : ∀ (j : Nat) (g : Forwarder), (s.forwarders.set i (f.receive r))[j]? = some g →
      (i = j ∧ g = f.receive r) ∨ s.forwarders[j]? = some g := by
    intro j g hg
    rw [List.getElem?_set] at hg
    split_ifs at hg with hij hlt
    · exact .inl ⟨hij, (Option.some.inj hg).symm⟩
    · exact .inr hg
  have hsub : ∀ (j : Nat) (g : Forwarder), (s.forwarders.set i (f.receive r))[j]? = some g →
      ∃ g', s.forwarders[j]? = some g' ∧ g'.sub = g.sub := by
    intro j g hg
    rcases hrow j g hg with ⟨rfl, rfl⟩ | hg
    · exact ⟨f, hf, rfl⟩
    · exact ⟨g, hg, rfl⟩
  refine ⟨h.sound, fun j g hg => ?_, fun j k g g' hg hg' hsame => ?_, h.older,
    h.count.trans (by omega)⟩
  · rcases hrow j g hg with ⟨rfl, rfl⟩ | hg
    · exact (h.delivers i f hf).receive hheld (h.sound.holds f.topic c hc) hr _
    · exact (h.delivers j g hg).congr rfl rfl le_rfl
  · obtain ⟨f₁, hf₁, hsub₁⟩ := hsub j g hg
    obtain ⟨f₂, hf₂, hsub₂⟩ := hsub k g' hg'
    exact h.distinct j k f₁ f₂ hf₁ hf₂ (hsub₁.trans (hsame.trans hsub₂.symm))

theorem Delivering.forward (h : Delivering capacity n s) {i : Nat} {f : Forwarder} {data : Data}
    {connection : Connection} (hf : s.forwarders[i]? = some f) (hheld : f.held = some data)
    (hids : connection.nextSub = s.connection.nextSub) :
    Delivering capacity (n + 1) { s with
      connection
      forwarders := s.forwarders.set i f.release
      posted := s.posted ++ [f.event data] } := by
  have hrow : ∀ (j : Nat) (g : Forwarder), (s.forwarders.set i f.release)[j]? = some g →
      (i = j ∧ g = f.release) ∨ (i ≠ j ∧ s.forwarders[j]? = some g) := by
    intro j g hg
    rw [List.getElem?_set] at hg
    split_ifs at hg with hij hlt
    · exact .inl ⟨hij, (Option.some.inj hg).symm⟩
    · exact .inr ⟨hij, hg⟩
  have hsub : ∀ (j : Nat) (g : Forwarder), (s.forwarders.set i f.release)[j]? = some g →
      ∃ g', s.forwarders[j]? = some g' ∧ g'.sub = g.sub := by
    intro j g hg
    rcases hrow j g hg with ⟨rfl, rfl⟩ | ⟨-, hg⟩
    · exact ⟨f, hf, rfl⟩
    · exact ⟨g, hg, rfl⟩
  refine ⟨h.sound, fun j g hg => ?_, fun j k g g' hg hg' hsame => ?_, fun e he => ?_, ?_⟩
  · rcases hrow j g hg with ⟨rfl, rfl⟩ | ⟨hij, hg⟩
    · exact (h.delivers i f hf).release hheld hids _
    · refine (h.delivers j g hg).post_other (fun hsame => ?_) hids _
      exact hij (h.distinct i j f g hf hg hsame)
  · obtain ⟨f₁, hf₁, hsub₁⟩ := hsub j g hg
    obtain ⟨f₂, hf₂, hsub₂⟩ := hsub k g' hg'
    exact h.distinct j k f₁ f₂ hf₁ hf₂ (hsub₁.trans (hsame.trans hsub₂.symm))
  · show e.sub.toNat < connection.nextSub.toNat
    rw [hids]
    rcases List.mem_append.mp he with he | he
    · exact h.older e he
    · rw [List.mem_singleton.mp he]
      exact (h.delivers i f hf).older
  · show connection.nextSub.toNat ≤ n + 1 + 1
    rw [hids]
    exact h.count.trans (by omega)

/-- Only the connection changes, and no id is taken. -/
theorem Delivering.quiet (h : Delivering capacity n s) {connection : Connection}
    (hids : connection.nextSub = s.connection.nextSub) (taken : List Event) :
    Delivering capacity (n + 1) { s with connection, taken } where
  sound := h.sound
  delivers := fun i f hf => (h.delivers i f hf).congr rfl rfl (hids ▸ le_rfl)
  distinct := h.distinct
  older := fun e he => hids ▸ h.older e he
  count := by
    show connection.nextSub.toNat ≤ n + 1 + 1
    rw [hids]
    exact h.count.trans (by omega)

/-- The hub opens the topic and an id is taken. -/
theorem Delivering.open (h : Delivering capacity n s) {connection : Connection}
    (hids : connection.nextSub.toNat = s.connection.nextSub.toNat + 1) (topic : Topic) :
    Delivering capacity (n + 1) { s with hub := s.hub.openTopic topic, connection } where
  sound := h.sound.openTopic topic
  delivers := by
    intro i f hf
    have hold := h.delivers i f hf
    refine hold.grow ?_ ⟨[], by rw [Hub.log_openTopic, List.append_nil]⟩ (by omega) s.taken
      s.forwarders
    rcases Hub.channels_openTopic s.hub topic f.topic with hsame | ⟨-, -, hempty⟩
    · rw [hsame]
      exact hold.opened
    · rw [hempty]
      rfl
  distinct := h.distinct
  older := by
    intro e he
    have hold := h.older e he
    show e.sub.toNat < connection.nextSub.toNat
    omega
  count := by
    have hcount := h.count
    show connection.nextSub.toNat ≤ n + 1 + 1
    omega

/-- A new forwarder has an id of its own and starts at the end of the log. -/
theorem Delivering.spawn (h : Delivering capacity n s) {sub : UInt64} {topic : Topic}
    (hopen : (s.hub.channels topic).isSome = true) (hsub : sub.toNat < s.connection.nextSub.toNat)
    (hforwarders : ∀ (i : Nat) (f : Forwarder), s.forwarders[i]? = some f → f.sub ≠ sub)
    (hposted : s.postedFor sub = []) :
    Delivering capacity n { s with
      forwarders := s.forwarders ++ [Forwarder.spawned sub topic (s.hub.tail topic)] } := by
  have htail := Hub.tail_eq h.sound hopen
  have hrow : ∀ (j : Nat) (g : Forwarder),
      (s.forwarders ++ [Forwarder.spawned sub topic (s.hub.tail topic)])[j]? = some g →
      s.forwarders[j]? = some g ∨
        j = s.forwarders.length ∧ g = Forwarder.spawned sub topic (s.hub.tail topic) := by
    intro j g hg
    rcases Nat.lt_or_ge j s.forwarders.length with hlt | hge
    · rw [List.getElem?_append_left hlt] at hg
      exact .inl hg
    · rw [List.getElem?_append_right hge, List.getElem?_singleton] at hg
      split_ifs at hg with hzero
      exact .inr ⟨by omega, (Option.some.inj hg).symm⟩
  refine ⟨h.sound, fun j g hg => ?_, fun j k g g' hg hg' hsame => ?_, h.older, h.count⟩
  · rcases hrow j g hg with hg | ⟨-, rfl⟩
    · exact (h.delivers j g hg).congr rfl rfl le_rfl
    · refine ⟨hopen, le_rfl, htail.le, ?_, ?_, ?_, hsub⟩
      · show Accounts [] (stretch _ (s.hub.tail topic) (s.hub.tail topic))
        rw [stretch_self]
        exact .nil
      · show [] = (s.postedFor sub).map Event.data ++ []
        rw [hposted]
        rfl
      · intro e he
        have hnone : e ∈ s.postedFor sub := he
        rw [hposted] at hnone
        cases hnone
  · rcases hrow j g hg with hg | ⟨hj, rfl⟩ <;> rcases hrow k g' hg' with hg' | ⟨hk, rfl⟩
    · exact h.distinct j k g g' hg hg' hsame
    · exact absurd hsame (hforwarders j g hg)
    · exact absurd hsame.symm (hforwarders k g' hg')
    · exact hj.trans hk.symm

theorem Delivering.poll (h : Delivering capacity n s) (hroom : n + 2 < 2 ^ 64) {req : Request}
    {connection : Connection} (hstep : s.connection.step (.poll req) = some connection) :
    Delivering capacity (n + 1) { s.subscribe req with connection } := by
  have hids := Connection.nextSub_of_poll hstep
  cases htopic : subscribedTopic req with
  | none =>
    rw [htopic, Option.isSome_none, if_neg Bool.false_ne_true] at hids
    have hsame : s.subscribe req = s := by rw [subscribe, htopic]
    rw [hsame]
    exact h.quiet hids s.taken
  | some topic =>
    rw [htopic, Option.isSome_some, if_pos rfl] at hids
    have hcount := h.count
    have hnat : connection.nextSub.toNat = s.connection.nextSub.toNat + 1 := by
      rw [hids, UInt64.toNat_add]
      exact Nat.mod_eq_of_lt (by show s.connection.nextSub.toNat + 1 < 2 ^ 64; omega)
    have hopened := h.open hnat topic
    have hnew : s.connection.nextSub.toNat < connection.nextSub.toNat := by omega
    simp only [subscribe, htopic]
    split_ifs
    · exact hopened
    · refine hopened.spawn (Hub.isSome_openTopic s.hub topic) hnew (fun i f hf hsame => ?_) ?_
      · have holder := (h.delivers i f hf).older
        rw [hsame] at holder
        exact absurd holder (lt_irrefl _)
      · refine List.filter_eq_nil_iff.mpr fun e he => ?_
        rw [decide_eq_true_iff]
        intro hsame
        have holder := h.older e he
        rw [hsame] at holder
        exact absurd holder (lt_irrefl _)

theorem Delivering.of_step (h : Delivering capacity n s) (hcapacity : 0 < capacity)
    (hroom : n + 2 < 2 ^ 64) (hstep : step capacity s a = some t) :
    Delivering capacity (n + 1) t := by
  cases a with
  | publish topic data =>
    cases hstep
    exact h.publish hcapacity topic data
  | recv i =>
    obtain ⟨f, c, r, hf, hheld, hc, hr, rfl⟩ := recv_step hstep
    exact h.recv hf hheld hc hr
  | forward i =>
    obtain ⟨f, data, connection, hf, hheld, hconnection, rfl⟩ := forward_step hstep
    exact h.forward hf hheld (Connection.onTheWay_of_forward hconnection).2.2.2
  | connection ca =>
    obtain ⟨hforward, connection, hconnection, rfl⟩ := connection_step hstep
    by_cases hpoll : ∃ req, ca = .poll req
    · obtain ⟨req, rfl⟩ := hpoll
      exact h.poll hroom hconnection
    · have hids := Connection.nextSub_of_step (fun req heq => hpoll ⟨req, heq⟩) hconnection
      by_cases hnext : ca = .client .nextEvent
      · subst hnext
        exact h.quiet hids _
      · have hsame : s.follow ca = s := by
          unfold follow
          split
          · exact absurd ⟨_, rfl⟩ hpoll
          · exact absurd rfl hnext
          · rfl
        rw [hsame]
        exact h.quiet hids s.taken

theorem delivering_of_run (hcapacity : 0 < capacity) (hroom : acts.length < 2 ^ 64 - 1)
    (hrun : run (step capacity) start acts = some s) : Delivering capacity acts.length s := by
  revert hroom
  refine history_invariant (step capacity) (P := fun acts s =>
    acts.length < 2 ^ 64 - 1 → Delivering capacity acts.length s) ?_ ?_ hrun
  · intro _
    refine ⟨⟨fun topic c hc => (nomatch hc), fun _ _ => rfl⟩, ?_, ?_, ?_, ?_⟩
    · intro i f hf
      cases hf
    · intro i j f g hf
      cases hf
    · intro e he
      cases he
    · decide
  · intro acts s a t _ ih hstep hroom
    rw [List.length_append, List.length_singleton] at hroom ⊢
    exact (ih (by omega)).of_step hcapacity (by omega) hstep

/-- In every run (of fewer steps than there are ids) what a subscription has put into the
mailbox, with the payload in hand, accounts for its topic from the moment it subscribed: every
value once and in order, or one `lagged` event that counts the values it stands for. -/
theorem subscription_accounts_for_topic (hcapacity : 0 < capacity)
    (hroom : acts.length < 2 ^ 64 - 1) (hrun : run (step capacity) start acts = some s)
    {i : Nat} {f : Forwarder} (hf : s.forwarders[i]? = some f) :
    Accounts f.got (stretch (s.hub.log f.topic) f.start f.cursor) ∧
    f.got.map eventData = (s.postedFor f.sub).map Event.data ++ f.held.toList ∧
    (∀ e ∈ s.postedFor f.sub, e.topic = f.topic.asStr) ∧
    f.start ≤ f.cursor ∧ f.cursor ≤ (s.hub.log f.topic).length := by
  have hdelivers := (delivering_of_run hcapacity hroom hrun).delivers i f hf
  exact ⟨hdelivers.accounts, hdelivers.posts, hdelivers.topics, hdelivers.start_le,
    hdelivers.cursor_le⟩

theorem subscription_accounts_for_topic_overtaken : ∃ s, run (step 2) start overtaken = some s ∧
    ∃ f, s.forwarders[0]? = some f ∧ f.got = [.value (number 1), .lagged 1] ∧
      Accounts f.got (stretch (s.hub.log f.topic) f.start f.cursor) := by
  refine ⟨_, rfl, _, rfl, rfl, ?_⟩
  have hrun : run (step 2) start overtaken = some _ := rfl
  exact (subscription_accounts_for_topic (i := 0) (by decide) (by decide) hrun rfl).1

/-! ## A client that keeps up -/

/-- A receiver takes its next value before the channel has dropped it. -/
def KeepsUp (capacity : Nat) (s : EventSystem) : EventAction → Prop
  | .recv i => ∀ f ∈ s.forwarders[i]?, (s.hub.log f.topic).length ≤ f.cursor + capacity
  | .publish .. | .forward _ | .connection _ => True

instance (s : EventSystem) : (a : EventAction) → Decidable (KeepsUp capacity s a)
  | .recv i => inferInstanceAs
      (Decidable (∀ f ∈ s.forwarders[i]?, (s.hub.log f.topic).length ≤ f.cursor + capacity))
  | .publish .. | .forward _ | .connection _ => inferInstanceAs (Decidable True)

/-- No forwarder has been told of a gap. -/
def Gapless (s : EventSystem) : Prop :=
  ∀ (i : Nat) (f : Forwarder), s.forwarders[i]? = some f → ∀ missed, .lagged missed ∉ f.got

theorem forwarders_follow (s : EventSystem) (a : Action) :
    (s.follow a).forwarders = s.forwarders ∨
      ∃ f, f.got = [] ∧ (s.follow a).forwarders = s.forwarders ++ [f] := by
  unfold follow
  split
  · unfold subscribe
    split
    · exact .inl rfl
    · dsimp only
      split_ifs
      · exact .inl rfl
      · exact .inr ⟨_, rfl, rfl⟩
  · exact .inl rfl
  · exact .inl rfl

theorem Gapless.set (h : s.Gapless) {i : Nat} {f : Forwarder} (hf : ∀ missed, .lagged missed ∉ f.got)
    (posted : List Event) (connection : Connection) :
    Gapless { s with connection, posted, forwarders := s.forwarders.set i f } := by
  intro j g hg
  rw [List.getElem?_set] at hg
  split_ifs at hg
  · cases hg
    exact hf
  · exact h j g hg

theorem Gapless.of_step (h : s.Gapless) (hsound : s.hub.Sound capacity) (hok : KeepsUp capacity s a)
    (hstep : step capacity s a = some t) : t.Gapless := by
  cases a with
  | publish topic data =>
    cases hstep
    exact h
  | recv i =>
    obtain ⟨f, c, r, hf, -, hc, hr, rfl⟩ := recv_step hstep
    have hnear := hok f hf
    refine h.set (fun missed hmem => ?_) s.posted s.connection
    have hmem' : .lagged missed ∈ f.got ++ [r.1] := hmem
    rcases List.mem_append.mp hmem' with hmem | hmem
    · exact h i f hf missed hmem
    · exact recv_of_near (hsound.holds f.topic c hc) hnear hr missed (List.mem_singleton.mp hmem).symm
  | forward i =>
    obtain ⟨f, data, connection, hf, -, -, rfl⟩ := forward_step hstep
    exact h.set (f := f.release) (h i f hf) _ connection
  | connection ca =>
    obtain ⟨-, connection, -, rfl⟩ := connection_step hstep
    intro j g hg
    rcases forwarders_follow s ca with hsame | ⟨f, hgot, hmore⟩
    · rw [show (s.follow ca).forwarders = _ from hsame] at hg
      exact h j g hg
    · rw [show (s.follow ca).forwarders = _ from hmore] at hg
      rcases List.mem_append.mp (List.mem_of_getElem? hg) with hmem | hmem
      · obtain ⟨k, hk⟩ := List.getElem?_of_mem hmem
        exact h k g hk
      · rw [List.mem_singleton.mp hmem, hgot]
        exact fun _ => List.not_mem_nil

/-- If no receiver ever falls behind by more than its channel holds, and the connection is
intact, the client has or will get every value of the topic from the moment it subscribed up
to where the forwarder is: each once, in order, and nothing else. -/
theorem client_misses_nothing (hcapacity : 0 < capacity) (hroom : acts.length < 2 ^ 64 - 1)
    (hguard : Guarded (step capacity) (KeepsUp capacity) start acts)
    (hrun : run (step capacity) start acts = some s) (hintact : s.connection.intact = true)
    {i : Nat} {f : Forwarder} (hf : s.forwarders[i]? = some f) :
    ((s.taken ++ s.connection.onTheWay).filter (·.sub = f.sub)).map Event.data ++ f.held.toList =
      stretch (s.hub.log f.topic) f.start f.cursor := by
  have hgapless : s.Gapless := by
    refine guarded_history (step capacity) (P := fun acts s =>
      acts.length < 2 ^ 64 - 1 → s.Gapless) ?_ ?_ hguard hrun hroom
    · intro _ i f hf
      cases hf
    · intro acts s a t hreach ih hok hstep hlength
      rw [List.length_append, List.length_singleton] at hlength
      have hdelivering := delivering_of_run hcapacity (by omega) hreach
      exact (ih (by omega)).of_step hdelivering.sound hok hstep
  have hdelivers := (delivering_of_run hcapacity hroom hrun).delivers i f hf
  have hgot := hdelivers.accounts.eq_of_no_lag (hgapless i f hf)
  rw [(inOrder_of_run hrun).whole hintact]
  show (s.postedFor f.sub).map Event.data ++ f.held.toList = _
  rw [← hdelivers.posts, hgot, List.map_map]
  exact List.map_id _

theorem client_misses_nothing_two : ∃ s, run (step 2) start keepsUp = some s ∧
    ∃ f, s.forwarders[0]? = some f ∧
    ((s.taken ++ s.connection.onTheWay).filter (·.sub = f.sub)).map Event.data ++ f.held.toList =
      [number 1, number 2] := by
  refine ⟨_, rfl, _, rfl, ?_⟩
  have hrun : run (step 2) start keepsUp = some _ := rfl
  exact client_misses_nothing (i := 0) (by decide) (by decide) (by decide) hrun (by decide) rfl

end EventSystem

end Postblox.Ipc
