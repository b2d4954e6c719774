import Postblox.Sync.Ingest

/-!
# The drain loop

The loop works off one answer after the other: the one it starts from and those
of the `sync_folder` calls it makes, each asking for the UIDs above the window
before it. Its fuel is never used up, since every further window starts higher.
-/
namespace Postblox.Sync

open Lib Db Imap Mail Attachments

variable {env : Env} {mail : MailCrate} {t : Target}

variable (env) in
theorem query_cases {α : Type} (read : Database → α) (w : World) :
    (∃ e, query env read w = (.error e, w.tick)) ∨ query env read w = (.ok (read w.db), w.tick) := by
  rcases statement_cases env DbError.failed (fun w => .ok (read w.db, w)) w with
    ⟨e, heq, -⟩ | ⟨a, w', heffect, heq | heq⟩
  · exact .inl ⟨e, heq⟩
  · cases heffect
    exact .inr heq
  · cases heffect
    exact .inl ⟨_, heq⟩

theorem mem_existingUids {db : Database} {folder : FolderId} {uids : List Int} {u : Int} :
    u ∈ Messages.existingUids db folder uids ↔ Messages.UidTaken db folder u ∧ u ∈ uids := by
  unfold Messages.existingUids Messages.UidTaken
  simp only [List.mem_map, List.mem_filter, List.contains_iff_mem, decide_eq_true_eq]
  constructor
  · intro ⟨m, ⟨hm, hfolder, huid⟩, heq⟩
    exact ⟨⟨m, hm, hfolder, heq⟩, heq ▸ huid⟩
  · intro ⟨⟨m, hm, hfolder, heq⟩, huid⟩
    exact ⟨m, ⟨hm, hfolder, heq ▸ huid⟩, heq⟩

/-- The UIDs found are those of the rows that are there. -/
theorem wp_existingUids (folder : FolderId) (uids : List Int) (w : World) :
    Fallible.wp (handle env) (existingUids folder uids) w (fun r u =>
      Quiet w u ∧ ∀ already, r = .ok already →
        ∀ x, x ∈ already ↔ Messages.UidTaken w.db folder x ∧ x ∈ uids) := by
  refine ⟨exec_quiet _ (only_existingUids (fun _ _ => rfl) folder uids) w, ?_⟩
  unfold existingUids
  split_ifs with hempty
  · intro already hr
    obtain rfl : [] = already := Except.ok.inj hr
    rw [List.isEmpty_iff.mp hempty]
    simp
  · intro already
    show (Fallible.exec (handle env) (SyncM.ofDb (query env _ w).1) (query env _ w).2).1 = _ → _
    rcases query_cases env (fun db => Messages.existingUids db folder uids) w with
      ⟨e, heq⟩ | heq
    · rw [heq]
      exact fun hr => nomatch hr
    · rw [heq]
      intro hr
      obtain rfl := Except.ok.inj hr
      exact fun x => mem_existingUids

/-- One round: rows for what is new in the answer; at its end every readable
message of the answer has a row. -/
theorem wp_ingestAnswer (server : FolderSync) (p : Progress) (w : World) :
    Fallible.wp (handle env) (ingestAnswer mail t server p) w (fun r u =>
      ∃ rows, Grows w u rows ∧
        (∀ row ∈ rows, ∃ m ∈ server.messages, RowOf mail t.account.id t.folder.id m row ∧
          ¬ Messages.UidTaken w.db t.folder.id (uidOf m)) ∧
        ∀ q, r = .ok q → ∀ m ∈ server.messages, Ingestible mail m →
          Messages.UidTaken u.db t.folder.id (uidOf m)) := by
  refine Fallible.wp_bind _ (Fallible.wp_mono _ (wp_existingUids _ _ w) ?_)
  intro r u ⟨hquiet, halready⟩
  constructor
  · intro already hr
    have hmem := halready already hr
    have huid : ∀ m ∈ server.messages, uidOf m ∈ server.messages.map uidOf :=
      fun m hm => List.mem_map_of_mem hm
    refine Fallible.wp_mono _ (wp_ingestAll already server.messages p u) ?_
    intro r' v ⟨rows, hgrows, hrows, hall⟩
    have hgrows' : Grows w v rows := by
      have htrans := (Grows.of_quiet hquiet).trans hgrows
      rwa [List.nil_append] at htrans
    refine ⟨rows, hgrows', ?_, ?_⟩
    · intro row hrow
      obtain ⟨m, hm, hof, hnot⟩ := hrows row hrow
      exact ⟨m, hm, hof, fun htaken => hnot ((hmem _).mpr ⟨htaken, huid m hm⟩)⟩
    · intro q hq m hm hing
      by_cases hin : uidOf m ∈ already
      · obtain ⟨⟨row, hrow, hkey⟩, -⟩ := (hmem _).mp hin
        refine ⟨row, ?_, hkey⟩
        rw [hgrows'.messages]
        exact List.mem_append_left _ hrow
      · obtain ⟨row, hrow, hof⟩ := hall q hq m hm hing hin
        refine ⟨row, ?_, hof.folderId, hof.uid⟩
        rw [hgrows'.messages]
        exact List.mem_append_right _ hrow
  · intro e _
    exact ⟨[], .of_quiet hquiet, by simp, fun _ h => nomatch h⟩

/-- The world after a `sync_folder` call. -/
def World.called (w : World) (rec : SyncRecord) : World := { w with syncs := w.syncs ++ [rec] }

/-- The call that `fetchFrom` makes. -/
def callFor (env : Env) (t : Target) (w : World) (fromUid : UInt32) : SyncRecord where
  account := t.account.id
  folder := t.folder.name
  fromUid := fromUid
  session := env.session w.syncs.length

theorem wp_fetchFrom {fromUid : UInt32} {w : World} {Q : Except SyncError FolderSync → World → Prop}
    (hok : ∀ server, (callFor env t w fromUid).answer = .ok server →
      Q (.ok server) (w.called (callFor env t w fromUid)))
    (herror : ∀ e, (callFor env t w fromUid).answer = .error e →
      Q (.error (.imap e)) (w.called (callFor env t w fromUid))) :
    Fallible.wp (handle env) (fetchFrom t fromUid) w Q := by
  refine Fallible.wp_ask_bind _ ?_
  show Fallible.wp (handle env) (SyncM.ofImap (callFor env t w fromUid).answer)
    (w.called (callFor env t w fromUid)) Q
  cases hanswer : (callFor env t w fromUid).answer with
  | ok server => exact hok server hanswer
  | error e => exact herror e hanswer

/-- The answers the loop works off. -/
def answers (server : FolderSync) (recs : List SyncRecord) : List FolderSync :=
  server :: recs.filterMap fun r => r.answer.toOption

/-- The `sync_folder` calls the loop makes after an answer: each only when more was
announced, for the UIDs right above the window before, on the next connection. -/
def Chained (env : Env) (account : AccountId) (name : String) :
    Nat → FolderSync → List SyncRecord → Prop
  | _, _, [] => True
  | n, server, r :: rest =>
    server.hasMore = true ∧
      r = { account, folder := name, fromUid := saturatingAdd server.windowHi 1,
            session := env.session n } ∧
      match r.answer with
      | .ok next => Chained env account name (n + 1) next rest
      | .error _ => rest = []

/-- A window with more to come ends at or above its start and below `u32::MAX`. -/
theorem answer_hasMore {r : SyncRecord} {server : FolderSync} (h : r.answer = .ok server)
    (hmore : server.hasMore = true) :
    r.fromUid.toNat ≤ server.windowHi.toNat ∧ server.windowHi.toNat + 1 < u32Max := by
  obtain ⟨mailbox, -, ⟨hi, -, hserver, -⟩ | ⟨lo, hi, more, stream, hwindow, -, -, hserver, -⟩⟩ :=
    syncFolder_ok h
  · rw [hserver] at hmore
    exact absurd hmore Bool.false_ne_true
  · rw [hserver] at hmore ⊢
    obtain ⟨hlo, hle, -, hmax⟩ := window_range hwindow
    have hlt := hmax hmore
    have hhi : (FolderSync.ofStream mailbox stream.items hi more).windowHi = hi := rfl
    rw [hhi]
    omega

theorem toNat_next {r : SyncRecord} {server : FolderSync} (h : r.answer = .ok server)
    (hmore : server.hasMore = true) :
    (saturatingAdd server.windowHi 1).toNat = server.windowHi.toNat + 1 := by
  obtain ⟨-, hlt⟩ := answer_hasMore h hmore
  have hone : (1 : UInt32).toNat = 1 := rfl
  rw [toNat_saturatingAdd, hone]
  omega

/-- How the loop leaves the world, whichever way it ends. -/
structure DrainPost (mail : MailCrate) (env : Env) (t : Target) (server : FolderSync)
    (lastSeen : Option Int) (w : World) (r : Except Stop Drained) (u : World)
    (recs : List SyncRecord) (rows : List Message) : Prop where
  syncs : u.syncs = w.syncs ++ recs
  chained : Chained env t.account.id t.folder.name w.syncs.length server recs
  messages : u.db.messages = w.db.messages ++ rows
  folders : u.db.folders = w.db.folders
  accounts : u.db.accounts = w.db.accounts
  origins : ∀ o ∈ w.origins, o ∈ u.origins
  /-- Every new row holds a message of an answer, and was fetched by its call. -/
  fetched : ∀ row ∈ rows, ∃ a ∈ answers server recs, ∃ m ∈ a.messages,
    RowOf mail t.account.id t.folder.id m row ∧
      ∃ rec, (row.id, some rec) ∈ u.origins ∧ rec.answer = .ok a
  /-- At the end of the loop nothing more is announced, and every readable message
  of every answer has a row. -/
  done : ∀ d, r = .ok d →
    d.lastSeen = (answers server recs).foldl highWater lastSeen ∧
      (answers server recs).getLast? = some d.server ∧ d.server.hasMore = false ∧
      (∀ rec ∈ recs, ∃ a, rec.answer = .ok a) ∧
      ∀ a ∈ answers server recs, ∀ m ∈ a.messages, Ingestible mail m →
        Messages.UidTaken u.db t.folder.id (uidOf m)
  fuel : r ≠ .error .fuel

theorem answers_cons_ok {server next : FolderSync} {r : SyncRecord} {recs : List SyncRecord}
    (h : r.answer = .ok next) : answers server (r :: recs) = server :: answers next recs := by
  unfold answers
  rw [List.filterMap_cons, h]
  rfl

/-- A round that is followed by another call: put the rest of the loop behind it. -/
theorem DrainPost.cons {server next : FolderSync} {lastSeen : Option Int} {w u v : World}
    {r : Except Stop Drained} {rec : SyncRecord} {recs : List SyncRecord}
    {rows rows' : List Message} (hgrows : Grows w u rows) (hmore : server.hasMore = true)
    (hrec : rec = callFor env t u (saturatingAdd server.windowHi 1))
    (hnext : rec.answer = .ok next)
    (hfetched : ∀ row ∈ rows, ∃ m ∈ server.messages, RowOf mail t.account.id t.folder.id m row ∧
      ∃ rec, (row.id, some rec) ∈ u.origins ∧ rec.answer = .ok server)
    (htaken : ∀ m ∈ server.messages, Ingestible mail m →
      Messages.UidTaken u.db t.folder.id (uidOf m))
    (hrest : DrainPost mail env t next (highWater lastSeen server) (u.called rec) r v recs rows') :
    DrainPost mail env t server lastSeen w r v (rec :: recs) (rows ++ rows') where
  syncs := by
    rw [hrest.syncs]
    show (u.syncs ++ [rec]) ++ recs = _
    rw [hgrows.syncs, List.append_assoc, List.singleton_append]
  chained := by
    refine ⟨hmore, ?_, ?_⟩
    · rw [hrec, callFor, hgrows.syncs]
    · rw [hnext]
      have hchained := hrest.chained
      have hlen : (u.called rec).syncs.length = w.syncs.length + 1 := by
        show (u.syncs ++ [rec]).length = _
        rw [hgrows.syncs, List.length_append, List.length_singleton]
      rwa [hlen] at hchained
  messages := by
    rw [hrest.messages]
    show u.db.messages ++ rows' = _
    rw [hgrows.messages, List.append_assoc]
  folders := hrest.folders.trans hgrows.folders
  accounts := hrest.accounts.trans hgrows.accounts
  origins := fun o ho => hrest.origins o (hgrows.origins o ho)
  fetched := by
    intro row hrow
    rw [answers_cons_ok hnext]
    rcases List.mem_append.mp hrow with hfirst | hsecond
    · obtain ⟨m, hm, hof, origin, horigin, hanswer⟩ := hfetched row hfirst
      exact ⟨server, List.mem_cons_self, m, hm, hof, origin, hrest.origins _ horigin, hanswer⟩
    · obtain ⟨a, ha, hrow'⟩ := hrest.fetched row hsecond
      exact ⟨a, List.mem_cons_of_mem _ ha, hrow'⟩
  done := by
    intro d hd
    obtain ⟨hmark, hserver, hend, hans, hall⟩ := hrest.done d hd
    rw [answers_cons_ok hnext]
    refine ⟨hmark, ?_, hend, ?_, ?_⟩
    · rw [List.getLast?_cons, hserver]
      rfl
    · intro r' hr'
      rcases List.mem_cons.mp hr' with rfl | htail
      · exact ⟨next, hnext⟩
      · exact hans r' htail
    · intro a ha m hm hing
      rcases List.mem_cons.mp ha with rfl | htail
      · obtain ⟨row, hrow, hkey⟩ := htaken m hm hing
        refine ⟨row, ?_, hkey⟩
        rw [hrest.messages]
        exact List.mem_append_left _ hrow
      · exact hall a htail m hm hing
  fuel := hrest.fuel

/-- The loop, by induction on its fuel; `rec` is the call whose answer it works off. -/
theorem wp_drain (fuel : Nat) (server : FolderSync) (p : Progress) (lastSeen : Option Int)
    (w : World) {rec : SyncRecord} (hlast : w.syncs.getLast? = some rec)
    (hanswer : rec.answer = .ok server) (hfuel : u32Max < rec.fromUid.toNat + fuel) :
    Fallible.wp (handle env) (drain mail t fuel server p lastSeen) w (fun r u =>
      ∃ recs rows, DrainPost mail env t server lastSeen w r u recs rows) := by
  induction fuel generalizing server p lastSeen w rec with
  | zero =>
    have hmax := toNat_le_u32Max rec.fromUid
    omega
  | succ fuel ih =>
    refine Fallible.wp_mapError_bind _ (Fallible.wp_mono _ (wp_ingestAnswer server p w) ?_)
    intro r u ⟨rows, hgrows, hrows, hall⟩
    have hfetched : ∀ row ∈ rows, ∃ m ∈ server.messages,
        RowOf mail t.account.id t.folder.id m row ∧
          ∃ rec, (row.id, some rec) ∈ u.origins ∧ rec.answer = .ok server := by
      intro row hrow
      obtain ⟨m, hm, hof, -⟩ := hrows row hrow
      have horigin := hgrows.fetched row hrow
      rw [hlast] at horigin
      exact ⟨m, hm, hof, rec, horigin, hanswer⟩
    have hfetched' : ∀ {recs : List SyncRecord}, ∀ row ∈ rows, ∃ a ∈ answers server recs,
        ∃ m ∈ a.messages, RowOf mail t.account.id t.folder.id m row ∧
          ∃ rec, (row.id, some rec) ∈ u.origins ∧ rec.answer = .ok a :=
      fun row hrow => ⟨server, List.mem_cons_self, hfetched row hrow⟩
    constructor
    · intro q hq
      split_ifs with hmore
      · -- more was announced: the next call, then the rest of the loop
        refine Fallible.wp_mapError_bind _ (wp_fetchFrom ?_ ?_)
        · intro next hnext
          refine ⟨?_, fun _ h => nomatch h⟩
          intro next' heq
          obtain rfl : next = next' := Except.ok.inj heq
          have hfrom : u32Max <
              (callFor env t u (saturatingAdd server.windowHi 1)).fromUid.toNat + fuel := by
            show u32Max < (saturatingAdd server.windowHi 1).toNat + fuel
            obtain ⟨hle, -⟩ := answer_hasMore hanswer hmore
            rw [toNat_next hanswer hmore]
            omega
          refine Fallible.wp_mono _ (ih next q _ _ List.getLast?_concat hnext hfrom) ?_
          intro r' v ⟨recs, rows', hpost⟩
          exact ⟨_, _, hpost.cons hgrows hmore rfl hnext hfetched (hall q hq)⟩
        · intro e he
          refine ⟨(fun _ h => nomatch h), ?_⟩
          intro e' _
          refine ⟨[callFor env t u (saturatingAdd server.windowHi 1)], rows, ?_, ?_,
            hgrows.messages, hgrows.folders, hgrows.accounts, hgrows.origins, hfetched',
            (fun _ h => nomatch h), fun h => nomatch h⟩
          · show u.syncs ++ [_] = _
            rw [hgrows.syncs]
          · refine ⟨hmore, by rw [callFor, hgrows.syncs], ?_⟩
            rw [he]
      · refine ⟨[], rows, ?_, trivial, hgrows.messages, hgrows.folders, hgrows.accounts,
          hgrows.origins, hfetched', ?_, fun h => nomatch h⟩
        · show u.syncs = _
          rw [hgrows.syncs, List.append_nil]
        · intro d hd
          obtain rfl := Except.ok.inj hd
          refine ⟨rfl, rfl, eq_false_of_ne_true hmore, by simp, ?_⟩
          intro a ha m hm hing
          obtain rfl : a = server := List.mem_singleton.mp ha
          exact hall q hq m hm hing
    · intro e _
      refine ⟨[], rows, ?_, trivial, hgrows.messages, hgrows.folders, hgrows.accounts,
        hgrows.origins, hfetched', (fun _ h => nomatch h), fun h => nomatch h⟩
      rw [hgrows.syncs, List.append_nil]

end Postblox.Sync
