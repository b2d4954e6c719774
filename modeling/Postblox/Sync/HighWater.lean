import Postblox.Imap.Mailbox
import Postblox.Sync.Runs

/-!
# The high-water mark

`last_seen_uid` is the maximum of what it was, of the UIDs seen and of the window
ends. The mark of a folder stays below every UID the server has yet to assign as
long as no window reaches past the mailbox: with an advertised `UIDNEXT` it never
does, without one a window of 500 UIDs may.
-/
namespace Postblox.Sync

open Lib Db Imap Mail

/-- An answer raises the mark to `m`: its window's end or one of its UIDs. -/
def Raises (a : FolderSync) (m : Int) : Prop :=
  m = a.windowHi.toNat ∨ ∃ msg ∈ a.messages, m = uidOf msg

theorem highWater_eq_some {lastSeen : Option Int} {a : FolderSync} {m : Int}
    (h : highWater lastSeen a = some m) :
    (lastSeen = some m ∨ Raises a m) ∧ (∀ x, lastSeen = some x → x ≤ m) ∧
      ∀ x, Raises a x → x ≤ m := by
  obtain ⟨hmem, hmax⟩ := List.max?_eq_some_iff.mp h
  simp only [List.mem_filterMap, List.mem_cons, List.not_mem_nil, or_false, id] at hmem hmax
  have hbatch : ∀ x, (a.messages.map uidOf).max? = some x → ∃ msg ∈ a.messages, x = uidOf msg := by
    intro x hx
    obtain ⟨msg, hmsg, heq⟩ := List.mem_map.mp (List.max?_eq_some_iff.mp hx).1
    exact ⟨msg, hmsg, heq.symm⟩
  refine ⟨?_, ?_, ?_⟩
  · obtain ⟨o, ho | ho | ho, hm⟩ := hmem
    · exact .inl (ho.symm.trans hm)
    · exact .inr (.inr (hbatch m (ho.symm.trans hm)))
    · exact .inr (.inl (Option.some.inj (hm.symm.trans ho)))
  · intro x hx
    exact hmax x ⟨_, .inl rfl, hx⟩
  · intro x hx
    rcases hx with rfl | ⟨msg, hmsg, rfl⟩
    · exact hmax _ ⟨_, .inr (.inr rfl), rfl⟩
    · cases hb : (a.messages.map uidOf).max? with
      | none =>
        rw [List.max?_eq_none_iff, List.map_eq_nil_iff] at hb
        rw [hb] at hmsg
        cases hmsg
      | some b =>
        have hle := (List.max?_eq_some_iff.mp hb).2 _ (List.mem_map_of_mem hmsg)
        have hbm := hmax b ⟨_, .inr (.inl rfl), hb⟩
        omega

/-- The mark after a list of answers: where it comes from and what it bounds. -/
theorem foldl_highWater {answers : List FolderSync} {start : Option Int} {m : Int}
    (h : answers.foldl highWater start = some m) :
    (start = some m ∨ ∃ a ∈ answers, Raises a m) ∧ (∀ x, start = some x → x ≤ m) ∧
      ∀ a ∈ answers, ∀ x, Raises a x → x ≤ m := by
  induction answers generalizing start with
  | nil =>
    have hstart : start = some m := h
    refine ⟨.inl hstart, ?_, fun _ ha => nomatch ha⟩
    intro x hx
    rw [hstart] at hx
    exact (Option.some.inj hx).ge
  | cons a rest ih =>
    obtain ⟨horigin, hstart, hrest⟩ := ih h
    cases hw : highWater start a with
    | none =>
      have hnone := List.max?_eq_none_iff.mp hw
      simp at hnone
    | some x =>
      obtain ⟨horigin', hstart', hraise'⟩ := highWater_eq_some hw
      have hxm := hstart x hw
      refine ⟨?_, ?_, ?_⟩
      · rcases horigin with hm | ⟨b, hb, hraises⟩
        · obtain rfl : x = m := Option.some.inj (hw.symm.trans hm)
          rcases horigin' with hm' | hraises
          · exact .inl hm'
          · exact .inr ⟨a, List.mem_cons_self, hraises⟩
        · exact .inr ⟨b, List.mem_cons_of_mem _ hb, hraises⟩
      · intro y hy
        exact (hstart' y hy).trans hxm
      · intro b hb y hy
        rcases List.mem_cons.mp hb with rfl | hmem
        · exact (hraise' y hy).trans hxm
        · exact hrest b hmem y hy

theorem highWater_isSome (start : Option Int) (a : FolderSync) (rest : List FolderSync) :
    ∃ m, (a :: rest).foldl highWater start = some m := by
  have hsome : ∀ (l : List FolderSync) (x : Int), ∃ m, l.foldl highWater (some x) = some m := by
    intro l
    induction l with
    | nil => exact fun x => ⟨x, rfl⟩
    | cons b l ih =>
      intro x
      cases hw : highWater (some x) b with
      | none =>
        have hnone := List.max?_eq_none_iff.mp hw
        simp at hnone
      | some y =>
        rw [List.foldl_cons, hw]
        exact ih y
  rw [List.foldl_cons]
  cases hw : highWater start a with
  | none =>
    have hnone := List.max?_eq_none_iff.mp hw
    simp at hnone
  | some y => exact hsome rest y

/-- The stored mark is below the UID. -/
def BelowUid (f : Folder) (uid : Nat) : Prop := ∀ m, f.lastSeenUid = some m → m < uid

/-! ## A mailbox over time -/

/-- The history of one mailbox of the server, by connection: the UID it would
assign next and the UIDs it holds. UIDs are assigned in strictly increasing order
and never reused. -/
structure MailboxHistory where
  validity : UInt32
  next : Nat → Nat
  present : Nat → Nat → Prop
  next_mono : Monotone next
  next_pos : ∀ k, 1 ≤ next k
  assigned : ∀ k uid, present k uid → 1 ≤ uid ∧ uid < next k

/-- What the server shows on its `k`-th connection is the mailbox at that time;
`UIDVALIDITY` and `UIDNEXT` may be left out. -/
structure MailboxHistory.Shows (h : MailboxHistory) (k : Nat) (s : Session) : Prop where
  validity : ∀ mb, s.select = .ok mb → ∀ v, mb.uidValidity = some v → v = h.validity
  next : ∀ mb, s.select = .ok mb → ∀ n, mb.uidNext = some n → n.toNat = h.next k
  count : ∀ mb, s.select = .ok mb → (mb.existsCount = 0 ↔ ∀ uid, ¬ h.present k uid)
  items : ∀ lo hi stream, s.uidFetch lo hi = .ok stream → ∀ f uid, .ok f ∈ stream.items →
    f.uid = some uid → lo ≤ uid ∧ uid ≤ hi ∧ h.present k uid.toNat

/-- The history of a mailbox given by its content at each connection. -/
def MailboxHistory.ofContent (validity : UInt32) (next : Nat → Nat)
    (content : Nat → ServerMailbox) (hmono : Monotone next) (hpos : ∀ k, 1 ≤ next k)
    (hlt : ∀ k, ∀ m ∈ (content k).messages, m.uid.toNat < next k) : MailboxHistory where
  validity := validity
  next := next
  present k uid := ∃ m ∈ (content k).messages, m.uid.toNat = uid
  next_mono := hmono
  next_pos := hpos
  assigned := by
    intro k uid ⟨m, hm, huid⟩
    rw [← huid]
    exact ⟨UInt32.lt_iff_toNat_lt.mp ((content k).uids_pos m hm), hlt k m hm⟩

/-- A connection to the mailbox shows its history. -/
theorem MailboxHistory.ofContent_shows {validity : UInt32} {next : Nat → Nat}
    {content : Nat → ServerMailbox} {hmono : Monotone next} {hpos : ∀ k, 1 ≤ next k}
    {hlt : ∀ k, ∀ m ∈ (content k).messages, m.uid.toNat < next k} {k : Nat}
    (hvalidity : ∀ v, (content k).uidValidity = some v → v = validity)
    (hnext : ∀ n, (content k).uidNext = some n → n.toNat = next k) :
    (ofContent validity next content hmono hpos hlt).Shows k (content k).session where
  validity := by
    intro mb hselect v hv
    obtain rfl : (content k).selected = mb := Except.ok.inj hselect
    exact hvalidity v hv
  next := by
    intro mb hselect n hn
    obtain rfl : (content k).selected = mb := Except.ok.inj hselect
    exact hnext n hn
  count := by
    intro mb hselect
    obtain rfl : (content k).selected = mb := Except.ok.inj hselect
    rw [(content k).existsCount_eq_zero]
    constructor
    · intro hnil uid ⟨m, hm, _⟩
      rw [hnil] at hm
      cases hm
    · intro hnone
      exact List.eq_nil_iff_forall_not_mem.mpr fun m hm => hnone _ ⟨m, hm, rfl⟩
  items := by
    intro lo hi stream hfetch f uid hmem huid
    obtain rfl := Except.ok.inj hfetch
    obtain ⟨m, hm, heq⟩ := List.mem_map.mp hmem
    obtain ⟨hmessages, hlo, hhi⟩ := (content k).mem_inRange.mp hm
    obtain rfl : m.fetch = f := Except.ok.inj heq
    obtain rfl : m.uid = uid := Option.some.inj huid
    exact ⟨hlo, hhi, m, hmessages, rfl⟩

/-- A call that is answered without `UIDNEXT` by a non-empty mailbox asks for UIDs
that are all assigned already. -/
def MailboxHistory.Within (h : MailboxHistory) (k : Nat) (r : SyncRecord) : Prop :=
  ∀ mb, r.session.select = .ok mb → mb.uidNext = none → mb.existsCount ≠ 0 →
    max r.fromUid.toNat 1 + 499 < h.next k

variable {h : MailboxHistory} {k : Nat} {r : SyncRecord} {server : FolderSync}

/-- The messages of an answer lie in the range asked for and in the mailbox. -/
theorem MailboxHistory.Shows.message (hshows : h.Shows k r.session) (hanswer : r.answer = .ok server)
    {m : FetchedMessage} (hm : m ∈ server.messages) :
    h.present k m.uid.toNat ∧ ∃ lo, r.range = some (lo, server.windowHi) ∧ lo ≤ m.uid ∧
      m.uid ≤ server.windowHi := by
  obtain ⟨mailbox, -, ⟨hi, -, hserver, -⟩ | ⟨lo, hi, more, stream, -, hfetch, -, hserver, hrange⟩⟩ :=
    syncFolder_ok hanswer
  · rw [hserver] at hm
    cases hm
  · rw [hserver] at hm ⊢
    obtain ⟨item, hitem, hsome⟩ := List.mem_filterMap.mp hm
    obtain ⟨f, rfl, huid, -⟩ := fetchedMessage_eq_some hsome
    obtain ⟨hlo, hhi, hpresent⟩ := hshows.items lo hi stream hfetch f m.uid hitem huid
    exact ⟨hpresent, lo, hrange, hlo, hhi⟩

/-- An answer raises the mark only to UIDs that are assigned already. -/
theorem raises_lt_next (hshows : h.Shows k r.session) (hwithin : h.Within k r)
    (hfrom : r.fromUid.toNat ≤ h.next k) (hanswer : r.answer = .ok server) {m : Int}
    (hraises : Raises server m) : m < h.next k := by
  rcases hraises with rfl | ⟨msg, hmsg, rfl⟩
  · have hpos := h.next_pos k
    obtain ⟨mailbox, hselect, ⟨hi, hwindow, hserver, -⟩ |
      ⟨lo, hi, more, stream, hwindow, -, -, hserver, -⟩⟩ := syncFolder_ok hanswer
    · have hhi : server.windowHi = hi := by rw [hserver]; rfl
      rw [hhi]
      cases hn : mailbox.uidNext with
      | none =>
        obtain ⟨-, heq⟩ := window_caughtUp_of_unknown hn hwindow
        omega
      | some n =>
        obtain ⟨heq, -⟩ := window_caughtUp_of_next hn hwindow
        have hnext := hshows.next mailbox hselect n hn
        omega
    · have hhi : server.windowHi = hi := by rw [hserver]; rfl
      rw [hhi]
      cases hn : mailbox.uidNext with
      | none =>
        obtain ⟨hexists, hlo, heq, -⟩ := window_range_of_unknown hn hwindow
        have hlt := hwithin mailbox hselect hn hexists
        omega
      | some n =>
        obtain ⟨-, -, -, -, hmore⟩ := window_range_of_next hn hwindow
        have hnext := hshows.next mailbox hselect n hn
        split_ifs at hmore <;> omega
  · obtain ⟨hpresent, -⟩ := hshows.message hanswer hmsg
    have hlt := (h.assigned k _ hpresent).2
    unfold uidOf
    omega

variable {env : Env} {mail : MailCrate} {account : AccountId} {name : String}
  {recs : List SyncRecord}

/-- Along the loop: by induction on its calls, carrying that each starts at most at
the UID to be assigned next. -/
theorem chained_lt_next (hshows : ∀ k, h.Shows k (env.session k))
    (hchained : Chained env account name (k + 1) server recs) (hsession : r.session = env.session k)
    (hanswer : r.answer = .ok server) (hfrom : r.fromUid.toNat ≤ h.next k)
    (hwithin : ∀ j rec, (r :: recs)[j]? = some rec → h.Within (k + j) rec) :
    ∀ a ∈ answers server recs, ∀ m, Raises a m → m < h.next (k + recs.length) := by
  have hhead : ∀ m, Raises server m → m < h.next k := by
    intro m hm
    refine raises_lt_next ?_ (hwithin 0 r rfl) hfrom hanswer hm
    rw [hsession]
    exact hshows k
  induction recs generalizing r server k with
  | nil =>
    intro a ha m hm
    rw [List.mem_singleton.mp ha] at hm
    exact hhead m hm
  | cons next rest ih =>
    have hle : h.next k ≤ h.next (k + (rest.length + 1)) := h.next_mono (by omega)
    obtain ⟨hmore, hnext, hrest⟩ := hchained
    intro a ha m hm
    cases hnextAnswer : next.answer with
    | error e =>
      rw [hnextAnswer] at hrest
      subst hrest
      have hanswers : answers server [next] = [server] := by
        unfold answers
        rw [List.filterMap_cons, hnextAnswer]
        rfl
      rw [hanswers, List.mem_singleton] at ha
      rw [ha] at hm
      exact (hhead m hm).trans_le (Int.ofNat_le.mpr hle)
    | ok server' =>
      rw [hnextAnswer] at hrest
      rw [answers_cons_ok hnextAnswer] at ha
      rcases List.mem_cons.mp ha with rfl | hmem
      · exact (hhead m hm).trans_le (Int.ofNat_le.mpr hle)
      · have hfrom' : next.fromUid.toNat ≤ h.next (k + 1) := by
          have hstart : next.fromUid.toNat = server.windowHi.toNat + 1 := by
            rw [hnext]
            exact toNat_next hanswer hmore
          have hlt := hhead _ (.inl rfl)
          have hmono : h.next k ≤ h.next (k + 1) := h.next_mono (Nat.le_succ k)
          omega
        have hsession' : next.session = env.session (k + 1) := by rw [hnext]
        have hwithin' : ∀ j rec, (next :: rest)[j]? = some rec → h.Within (k + 1 + j) rec := by
          intro j rec hj
          have hw := hwithin (j + 1) rec hj
          rwa [show k + (j + 1) = k + 1 + j by omega] at hw
        have hlt := ih hrest hsession' hnextAnswer hfrom' hwithin' (fun m hm => by
          refine raises_lt_next ?_ (hwithin' 0 next rfl) hfrom' hnextAnswer hm
          rw [hsession']
          exact hshows (k + 1)) a hmem m hm
        rwa [show k + 1 + rest.length = k + (rest.length + 1) by omega] at hlt

/-- The call asks the server for the UID. -/
def Asks (r : SyncRecord) (uid : Nat) : Prop :=
  ∃ lo hi, r.range = some (lo, hi) ∧ lo.toNat ≤ uid ∧ uid ≤ hi.toNat

/-- The connection does not hide the UID: a mailbox shown empty has not assigned it
yet, and a fetch brings only UIDs that were asked for. -/
structure Honest (s : Session) (uid : Nat) : Prop where
  empty : ∀ mb n, s.select = .ok mb → mb.existsCount = 0 → mb.uidNext = some n → n.toNat ≤ uid
  items : ∀ lo hi stream, s.uidFetch lo hi = .ok stream → ∀ f u, .ok f ∈ stream.items →
    f.uid = some u → lo ≤ u ∧ u ≤ hi

theorem MailboxHistory.Shows.honest {s : Session} (hshows : h.Shows k s) {uid : Nat}
    (hstays : uid < h.next k → h.present k uid) : Honest s uid where
  empty := by
    intro mb n hselect hempty hn
    by_contra hlt
    have hnext := hshows.next mb hselect n hn
    exact (hshows.count mb hselect).mp hempty uid (hstays (by omega))
  items := by
    intro lo hi stream hfetch f u hmem hu
    obtain ⟨hlo, hhi, -⟩ := hshows.items lo hi stream hfetch f u hmem hu
    exact ⟨hlo, hhi⟩

/-- A call at or below a UID asks for it, or leaves the mark below it. -/
theorem asks_or_below {uid : Nat} (hhonest : Honest r.session uid) (hanswer : r.answer = .ok server)
    (hpos : 1 ≤ uid) (hfrom : r.fromUid.toNat ≤ uid) :
    Asks r uid ∨ ∀ m, Raises server m → m < uid := by
  obtain ⟨mailbox, hselect, ⟨hi, hwindow, hserver, -⟩ |
    ⟨lo, hi, more, stream, hwindow, hfetch, -, hserver, hrange⟩⟩ := syncFolder_ok hanswer
  · right
    intro m hm
    rw [hserver] at hm
    rcases hm with rfl | ⟨msg, hmsg, -⟩
    · show (hi.toNat : Int) < uid
      cases hn : mailbox.uidNext with
      | none =>
        obtain ⟨-, heq⟩ := window_caughtUp_of_unknown hn hwindow
        omega
      | some n =>
        obtain ⟨heq, hempty | hle⟩ := window_caughtUp_of_next hn hwindow
        · have hle := hhonest.empty mailbox n hselect hempty hn
          omega
        · omega
    · cases hmsg
  · by_cases huid : uid ≤ hi.toNat
    · left
      obtain ⟨hlo, -⟩ := window_range hwindow
      exact ⟨lo, hi, hrange, by omega, huid⟩
    · right
      intro m hm
      rw [hserver] at hm
      rcases hm with rfl | ⟨msg, hmsg, rfl⟩
      · show (hi.toNat : Int) < uid
        omega
      · obtain ⟨item, hitem, hsome⟩ := List.mem_filterMap.mp hmsg
        obtain ⟨f, rfl, hf, -⟩ := fetchedMessage_eq_some hsome
        have hle := UInt32.le_iff_toNat_le.mp (hhonest.items lo hi stream hfetch f _ hitem hf).2
        unfold uidOf
        omega

theorem chained_asks_or_below (hchained : Chained env account name (k + 1) server recs)
    (hanswer : r.answer = .ok server) {uid : Nat}
    (hhonest : ∀ rec ∈ r :: recs, Honest rec.session uid) (hpos : 1 ≤ uid)
    (hfrom : r.fromUid.toNat ≤ uid) :
    (∃ rec ∈ r :: recs, Asks rec uid) ∨
      ∀ a ∈ answers server recs, ∀ m, Raises a m → m < uid := by
  have hhead := asks_or_below (hhonest r List.mem_cons_self) hanswer hpos hfrom
  induction recs generalizing r server k with
  | nil =>
    rcases hhead with hasks | hbelow
    · exact .inl ⟨r, List.mem_cons_self, hasks⟩
    · right
      intro a ha
      rw [List.mem_singleton.mp ha]
      exact hbelow
  | cons next rest ih =>
    rcases hhead with hasks | hbelow
    · exact .inl ⟨r, List.mem_cons_self, hasks⟩
    · obtain ⟨hmore, hnext, hrest⟩ := hchained
      cases hnextAnswer : next.answer with
      | error e =>
        right
        intro a ha
        have hanswers : answers server (next :: rest) = [server] := by
          rw [hnextAnswer] at hrest
          rw [hrest]
          unfold answers
          rw [List.filterMap_cons, hnextAnswer]
          rfl
        rw [hanswers] at ha
        rw [List.mem_singleton.mp ha]
        exact hbelow
      | ok server' =>
        rw [hnextAnswer] at hrest
        have hfrom' : next.fromUid.toNat ≤ uid := by
          have hstart : next.fromUid.toNat = server.windowHi.toNat + 1 := by
            rw [hnext]
            exact toNat_next hanswer hmore
          have hlt := hbelow _ (.inl rfl)
          omega
        have hhonest' : ∀ rec ∈ next :: rest, Honest rec.session uid :=
          fun rec hrec => hhonest rec (List.mem_cons_of_mem _ hrec)
        rcases ih hrest hnextAnswer hhonest' hfrom'
          (asks_or_below (hhonest' next List.mem_cons_self) hnextAnswer hpos hfrom') with
          ⟨rec, hmem, hasks⟩ | hall
        · exact .inl ⟨rec, List.mem_cons_of_mem _ hmem, hasks⟩
        · right
          intro a ha
          rw [answers_cons_ok hnextAnswer] at ha
          rcases List.mem_cons.mp ha with rfl | hmem
          · exact hbelow
          · exact hall a hmem

theorem answer_validity (hanswer : r.answer = .ok server) :
    ∃ mb, r.session.select = .ok mb ∧ server.uidValidity = mb.uidValidity ∧
      server.uidNext = mb.uidNext := by
  obtain ⟨mailbox, hselect, ⟨hi, -, hserver, -⟩ | ⟨lo, hi, more, stream, -, -, -, hserver, -⟩⟩ :=
    syncFolder_ok hanswer
  · exact ⟨mailbox, hselect, by rw [hserver]; rfl, by rw [hserver]; rfl⟩
  · exact ⟨mailbox, hselect, by rw [hserver]; rfl, by rw [hserver]; rfl⟩

/-- Every answer of the loop came from a connection of the call. -/
theorem answer_of_chained (hchained : Chained env account name (k + 1) server recs)
    (hsession : r.session = env.session k) (hanswer : r.answer = .ok server) :
    ∀ a ∈ answers server recs, ∃ j rec, (r :: recs)[j]? = some rec ∧
      rec.session = env.session (k + j) ∧ rec.answer = .ok a := by
  induction recs generalizing r server k with
  | nil =>
    intro a ha
    rw [List.mem_singleton.mp ha]
    exact ⟨0, r, rfl, hsession, hanswer⟩
  | cons next rest ih =>
    obtain ⟨-, hnext, hrest⟩ := hchained
    intro a ha
    rcases List.mem_cons.mp ha with rfl | hmem
    · exact ⟨0, r, rfl, hsession, hanswer⟩
    · cases hnextAnswer : next.answer with
      | error e =>
        rw [hnextAnswer] at hrest
        rw [hrest, List.filterMap_cons, hnextAnswer] at hmem
        cases hmem
      | ok server' =>
        rw [hnextAnswer] at hrest
        rw [List.filterMap_cons, hnextAnswer] at hmem
        have hsession' : next.session = env.session (k + 1) := by rw [hnext]
        obtain ⟨j, rec, hj, hs, hans⟩ := ih hrest hsession' hnextAnswer a hmem
        refine ⟨j + 1, rec, hj, ?_, hans⟩
        rw [hs, show k + (j + 1) = k + 1 + j by omega]

end Postblox.Sync
