/-
The channel tree of a server: a channel is in no category or in one of its server, and a category holds at most fifty
channels. `create_channel` checks the parent it is given; `update_channel` and `reorder_channels` write whatever the body
names.

- `Tree`: the invariant. A deleted category takes no channel with it (`clear_tree`, `delete_tree`).
- `WellPlaced`: an UPDATE moves a channel into another category of its server that has room.
- `exec_tree_iff`: such an UPDATE, and no other one, keeps the tree.
- `tree_iff`: over whole runs, with a look at the state after every statement.
- `own_parent`: a channel inside itself.
-/
import Lumiere.Routes.Structure

namespace Lumiere.Routes

open Lumiere.Core Lumiere.Core.Prog Lumiere.Models Lumiere.Db

/-! ## The invariant -/

def children (pg : Postgres) (parentId : ℤ) : ℕ := pg.channels.count fun c => c.parentId = some parentId

structure Tree (pg : Postgres) : Prop where
  /-- the parent is another channel of the same server, and a category -/
  parent : ∀ c ∈ pg.channels, ∀ p, c.parentId = some p → p ≠ c.id ∧ (p, c.serverId, 4) ∈ pg.places
  room : ∀ p, children pg p ≤ 50

/-- the channel may move into p: another category of its server, with room unless the channel is in it already -/
structure FitsIn (pg : Postgres) (c : Channel) (p : ℤ) : Prop where
  other : p ≠ c.id
  category : (p, c.serverId, 4) ∈ pg.places
  room : c.parentId = some p ∨ children pg p < 50

/-- an UPDATE that sets parents sets fitting ones -/
def WellPlaced : Stmt → Postgres → Prop
  | .updateChannel channelId changes, pg =>
    ∀ p, changes.parentId = some (some p) → ∀ c ∈ pg.channels, c.id = channelId → FitsIn pg c p
  | .moveChannel channelId serverId _ parentId, pg =>
    ∀ p, parentId = some (some p) → ∀ c ∈ pg.channels, c.id = channelId → c.serverId = some serverId → FitsIn pg c p
  | _, _ => True

/-- a new channel is in no category, or in one of its server with room -/
def InsertFits (w : Stmt) (pg : Postgres) : Prop :=
  ∀ row, w = .sql (.insertChannel row) →
    ∀ p, row.parentId = some p → (p, row.serverId, 4) ∈ pg.places ∧ children pg p < 50

variable {pg pg' : Postgres} {n : ℕ}

/-! ## One statement -/

/-- one channel gets another parent, or none, or keeps the one it has -/
theorem update_tree {q : Channel → Bool} {f : Channel → Channel} {hf : ∀ c, (f c).id = c.id} (k : ℤ)
    (parentId : Option (Option ℤ)) (hpg : Tree pg) (hchannels : pg'.channels = pg.channels.updateWhere q f hf)
    (hplaces : pg'.places = pg.places) (hserver : ∀ c, (f c).serverId = c.serverId)
    (hparent : ∀ c, (f c).parentId = parentId.getD c.parentId) (hq : ∀ c ∈ pg.channels, q c = true → c.id = k) :
    Tree pg' ↔ ∀ p, parentId = some (some p) → ∀ c ∈ pg.channels, q c = true → FitsIn pg c p := by
  have hcount : ∀ p, children pg' p =
      pg.channels.rows.countP fun c => (if q c then f c else c).parentId = some p := fun p => by
    rw [children, hchannels, Table.count, Table.updateWhere, List.countP_map]
    rfl
  constructor
  · intro htree p hp c hc hqc
    have hnew : f c ∈ pg'.channels := by
      rw [hchannels]
      exact Table.mem_updateWhere.2 ⟨c, hc, if_pos hqc⟩
    have hin : (f c).parentId = some p := by rw [hparent, hp, Option.getD_some]
    obtain ⟨hother, hcategory⟩ := htree.parent (f c) hnew p hin
    rw [hf] at hother
    rw [hserver, hplaces] at hcategory
    refine ⟨hother, hcategory, ?_⟩
    by_cases hold : c.parentId = some p
    · exact .inl hold
    · -- the channel is one more in p
      have hone : 1 ≤ pg.channels.rows.countP q := List.countP_pos_iff.2 ⟨c, hc, hqc⟩
      have hadd : children pg p + pg.channels.rows.countP q ≤ children pg' p := by
        rw [hcount]
        refine add_le_countP (fun a ha h => ?_) (fun a ha h => ?_) fun a ha h => ?_
        · have hnot : ¬ q a = true := fun hqa => by
            rw [Table.eq_of_key_eq ha hc ((hq a ha hqa).trans (hq c hc hqc).symm)] at h
            exact hold (of_decide_eq_true h)
          rw [if_neg hnot]
          exact h
        · rw [if_pos h, hparent, hp]
          exact decide_eq_true rfl
        · rw [← Bool.not_eq_true]
          intro hqa
          rw [Table.eq_of_key_eq ha hc ((hq a ha hqa).trans (hq c hc hqc).symm)] at h
          exact hold (of_decide_eq_true h)
      have hroom := htree.room p
      exact .inr (by omega)
  · intro hfits
    refine ⟨fun c' hc' p hp => ?_, fun p => ?_⟩
    · rw [hchannels] at hc'
      obtain ⟨c, hc, rfl⟩ := Table.mem_updateWhere.1 hc'
      rw [hplaces]
      split_ifs at hp ⊢ with hqc
      · rw [hf, hserver]
        rw [hparent] at hp
        rcases hpar : parentId with _ | new
        · rw [hpar] at hp
          exact hpg.parent c hc p hp
        · rw [hpar, Option.getD_some] at hp
          obtain ⟨hother, hcategory, -⟩ := hfits p (by rw [hpar, hp]) c hc hqc
          exact ⟨hother, hcategory⟩
      · exact hpg.parent c hc p hp
    · rw [hcount]
      by_cases hmove : ∃ c ∈ pg.channels, q c = true ∧ parentId = some (some p) ∧ c.parentId ≠ some p
      · obtain ⟨c, hc, hqc, hp, hold⟩ := hmove
        have hroom := (hfits p hp c hc hqc).room.resolve_left hold
        have hone : pg.channels.count q ≤ 1 := Table.count_le_one hq
        have hadd : (pg.channels.rows.countP fun c => (if q c then f c else c).parentId = some p) ≤
            children pg p + pg.channels.count q := countP_le_add fun a ha h => by
          by_cases hqa : q a = true
          · exact .inr hqa
          · rw [if_neg hqa] at h
            exact .inl h
        omega
      · refine le_trans (List.countP_mono_left fun a ha h => ?_) (hpg.room p)
        by_cases hqa : q a = true
        · rw [if_pos hqa, decide_eq_true_eq, hparent] at h
          by_contra hold
          rcases hpar : parentId with _ | new
          · rw [hpar] at h
            exact hold (decide_eq_true h)
          · rw [hpar, Option.getD_some] at h
            exact hmove ⟨a, ha, hqa, by rw [hpar, h], fun hsame => hold (decide_eq_true hsame)⟩
        · rw [if_neg hqa] at h
          exact h

theorem tree_congr (h : pg'.channels = pg.channels) (hpg : Tree pg) : Tree pg' := by
  refine ⟨fun c hc p hp => ?_, fun p => ?_⟩
  · rw [h] at hc
    rw [places_congr h]
    exact hpg.parent c hc p hp
  · rw [children, h]
    exact hpg.room p

/-- a new channel in a category with room -/
theorem insert_tree {row : Channel} (hinsert : pg.channels.insert? row = some pg'.channels) (hpg : Tree pg)
    (hfits : ∀ p, row.parentId = some p → (p, row.serverId, 4) ∈ pg.places ∧ children pg p < 50) : Tree pg' := by
  obtain ⟨hnew, hmem⟩ := Table.insert?_eq_some hinsert
  have hrows := Table.rows_insert? hinsert
  have hplaces : pg'.places = pg.places ++ [(row.id, row.serverId, row.type)] := by
    rw [Postgres.places, hrows, List.map_append]
    rfl
  refine ⟨fun c hc p hp => ?_, fun p => ?_⟩
  · rw [hplaces]
    rcases (hmem c).1 hc with hold | rfl
    · obtain ⟨hother, hcategory⟩ := hpg.parent c hold p hp
      exact ⟨hother, List.mem_append_left _ hcategory⟩
    · obtain ⟨hcategory, -⟩ := hfits p hp
      obtain ⟨d, hd, rfl, -⟩ := mem_places.1 hcategory
      exact ⟨hnew d hd, List.mem_append_left _ hcategory⟩
  · rw [children, Table.count, hrows, List.countP_append, List.countP_singleton]
    have hroom := hpg.room p
    by_cases hp : row.parentId = some p
    · obtain ⟨-, hlt⟩ := hfits p hp
      rw [if_pos (decide_eq_true hp)]
      exact hlt
    · rw [if_neg (by simp [hp])]
      exact hroom

/-- the children of a deleted category are in no category -/
theorem delete_tree {q : Channel → Bool} (hchannels : pg'.channels = (pg.deleteChannels q).channels)
    (hpg : Tree pg) : Tree pg' := by
  have hrows : pg'.channels.rows = (pg.channels.rows.filter fun c => !q c).map (pg.orphaned q) := by
    rw [hchannels, rows_deleteChannels]
  -- a channel that has a parent afterwards had it before, and the parent is not deleted
  have horphaned : ∀ {c p}, (pg.orphaned q c).parentId = some p →
      c.parentId = some p ∧ ∀ d ∈ pg.channels, d.id = p → q d = false := fun {c p} hp => by
    rw [Postgres.orphaned] at hp
    split_ifs at hp with hgone
    refine ⟨hp, fun d hd hid => ?_⟩
    by_contra hqd
    refine hgone ?_
    rw [hp, Option.any_some, Table.any_eq_true]
    exact ⟨d, hd, by simp [hid, Bool.not_eq_false _ ▸ hqd]⟩
  refine ⟨fun c' hc' p hp => ?_, fun p => ?_⟩
  · rw [← Table.mem_rows, hrows, List.mem_map] at hc'
    obtain ⟨c, hc, rfl⟩ := hc'
    obtain ⟨hold, hkept⟩ := horphaned hp
    obtain ⟨hother, hcategory⟩ := hpg.parent c (List.mem_filter.1 hc).1 p hold
    rw [Postgres.orphaned_id, Postgres.orphaned_serverId]
    refine ⟨hother, ?_⟩
    obtain ⟨d, hd, hid, hserver, htype⟩ := mem_places.1 hcategory
    have hd' : pg.orphaned q d ∈ pg'.channels := by
      rw [← Table.mem_rows, hrows]
      exact List.mem_map.2 ⟨d, List.mem_filter.2 ⟨hd, by rw [hkept d hd hid]; rfl⟩, rfl⟩
    refine mem_places.2 ⟨_, hd', ?_, ?_, ?_⟩
    · rw [Postgres.orphaned_id, hid]
    · rw [Postgres.orphaned_serverId, hserver]
    · rw [Postgres.orphaned_type, htype]
  · rw [children, Table.count, hrows, List.countP_map]
    calc (pg.channels.rows.filter fun c => !q c).countP ((fun c => c.parentId = some p) ∘ pg.orphaned q)
        ≤ (pg.channels.rows.filter fun c => !q c).countP fun c => c.parentId = some p :=
          List.countP_mono_left fun c _ h => decide_eq_true (horphaned (of_decide_eq_true h)).1
      _ ≤ children pg p := List.filter_sublist.countP_le
      _ ≤ 50 := hpg.room p

/-- an UPDATE of parents keeps the tree exactly if it is well placed -/
theorem exec_tree_iff {w : Stmt} (h : Stmt.exec pg w = .ok (n, pg')) (hpg : Tree pg)
    (hw : ∀ row, w ≠ .sql (.insertChannel row)) : Tree pg' ↔ WellPlaced w pg := by
  have hchannels := Stmt.exec_channels h
  have hplaces := Stmt.exec_places h
  cases w with
  | sql w =>
    refine iff_of_true ?_ trivial
    cases w with
    | insertChannel row => exact absurd rfl (hw row)
    | deleteServer serverId => exact delete_tree hchannels hpg
    | _ => exact tree_congr hchannels hpg
  | updateChannel channelId changes =>
    obtain ⟨c, hc, hchannels⟩ := hchannels
    have hiff := update_tree channelId changes.parentId hpg hchannels hplaces (fun _ => rfl)
      (fun _ => by rw [← hc]; rfl) fun _ _ hid => of_decide_eq_true hid
    simp only [decide_eq_true_eq] at hiff
    exact hiff
  | moveChannel channelId serverId position parentId =>
    have hiff := update_tree channelId parentId hpg hchannels hplaces (fun _ => rfl)
      (fun _ => rfl) fun _ _ hid => of_decide_eq_true (Bool.and_eq_true_iff.1 hid).1
    simp only [Bool.and_eq_true, decide_eq_true_eq, and_imp] at hiff
    exact hiff
  | clearParent channelId =>
    refine iff_of_true ⟨fun c' hc' p hp => ?_, fun p => ?_⟩ trivial
    · simp only at hchannels hplaces
      rw [hchannels] at hc'
      obtain ⟨c, hc, rfl⟩ := Table.mem_updateWhere.1 hc'
      rw [hplaces]
      split_ifs at hp ⊢
      exact hpg.parent c hc p hp
    · simp only at hchannels
      rw [children, hchannels, Table.count, Table.updateWhere, List.countP_map]
      refine le_trans (List.countP_mono_left fun c _ h => ?_) (hpg.room p)
      simp only [Function.comp] at h
      split_ifs at h
      · simp at h
      · exact h
  | deleteChannel channelId => exact iff_of_true (delete_tree hchannels hpg) trivial
  | _ => exact iff_of_true (tree_congr hchannels hpg) trivial

theorem exec_tree {w : Stmt} (h : Stmt.exec pg w = .ok (n, pg')) (hpg : Tree pg) (hw : WellPlaced w pg)
    (hinsert : InsertFits w pg) : Tree pg' := by
  by_cases hins : ∃ row, w = .sql (.insertChannel row)
  · obtain ⟨row, rfl⟩ := hins
    obtain ⟨-, -, name, topic, hrow⟩ := Stmt.exec_channels h
    exact insert_tree hrow hpg (hinsert row rfl)
  · rw [not_exists] at hins
    exact (exec_tree_iff h hpg hins).2 hw

/-! ## New channels -/

variable {auth serverId channelId : ℤ}

theorem checkParent_eq_ok {p : ℤ} {u : Unit} (h : (checkParent serverId p).run statement pg = (.ok u, pg')) :
    (p, some serverId, 4) ∈ pg.places ∧ children pg p < 50 ∧ pg' = pg := by
  simp only [checkParent, run_bind_eq_ok, run_select, orFail_eq_ok, failIf_eq_ok, Prod.mk.injEq, Except.ok.injEq] at h
  obtain ⟨_, _, ⟨rfl, rfl⟩, parent, _, ⟨hfind, rfl⟩, _, _, ⟨htype, rfl⟩, _, _, ⟨rfl, rfl⟩, hcount, rfl⟩ := h
  obtain ⟨hmem, hkey⟩ := Table.mem_of_find? hfind
  obtain ⟨hid, hserver⟩ := Bool.and_eq_true_iff.1 hkey
  refine ⟨mem_places.2 ⟨parent, hmem, of_decide_eq_true hid, of_decide_eq_true hserver, not_not.1 htype⟩, ?_, rfl⟩
  exact not_le.1 hcount

theorem createChannelChecks_eq_ok {body : CreateChannelRequest} {u : Unit}
    (h : (createChannelChecks auth serverId body).run statement pg = (.ok u, pg')) {p : ℤ}
    (hp : body.parentId = some p) : (p, some serverId, 4) ∈ pg.places ∧ children pg p < 50 := by
  simp only [createChannelChecks, run_bind_eq_ok, run_select, failIf_eq_ok, Prod.mk.injEq, Except.ok.injEq] at h
  obtain ⟨_, _, ⟨-, rfl⟩, _, _, hperms, _, _, ⟨-, rfl⟩, _, _, ⟨-, rfl⟩, _, _, ⟨-, rfl⟩, _, _, hparent, -⟩ := h
  obtain ⟨-, -, rfl⟩ := requirePermissions_eq_ok.1 hperms
  rw [hp] at hparent
  obtain ⟨hcategory, hroom, -⟩ := checkParent_eq_ok hparent
  exact ⟨hcategory, hroom⟩

/-- `create_server` makes channels without a parent -/
theorem insertFits_of_footprint {r : Request} {w : Sql} (hw : r.Footprint w) (pg : Postgres) :
    InsertFits (.sql w) pg := by
  rintro row heq p hp
  obtain rfl := Stmt.sql.inj heq
  cases r <;> simp [Request.Footprint] at hw
  obtain ⟨_, _, _, _, rfl⟩ := hw
  cases hp

/-- no request inserts a channel that does not fit -/
theorem stepsOf_insertFits (env : Env) (pg : Postgres) (r : PgRequest) : StepsOf env InsertFits pg r := by
  cases r with
  | server r => exact allSteps_sql.2 (Issues.allSteps ((issues_request r).mono fun _ => insertFits_of_footprint))
  | createChannel auth serverId body channelId now =>
    have hsteps : (createChannel env.unicode auth serverId body channelId now).AllSteps perform InsertFits pg := by
      refine allSteps_bind_of_readOnly (readOnly_sql readOnly_createChannelChecks) fun _ hchecks =>
        allSteps_bind.2 ⟨allSteps_execute ?_, fun _ _ _ => allSteps_bind.2
        ⟨?_, fun _ _ _ => (readOnly_sql readOnly_fetchChannel).allSteps⟩⟩
      · rw [run_sql] at hchecks
        rintro row heq p hp
        obtain rfl := Sql.insertChannel.inj (Stmt.sql.inj heq)
        exact createChannelChecks_eq_ok hchecks hp
      · rcases body.permissionOverrides with _ | overrides
        · exact allSteps_pure _
        · refine Issues.allSteps (issues_createOverrides.mono ?_)
          rintro w ⟨_, _, _, rfl⟩ _ row heq
          cases heq
    exact allSteps_bind.2 ⟨hsteps, fun _ _ _ => allSteps_pure _⟩
  | updateChannel auth channelId body =>
    refine Issues.allSteps (issues_bind (issues_updateChannel.mono ?_) fun _ => issues_pure _)
    rintro w (⟨_, rfl, _⟩ | rfl | ⟨_, _, _, rfl⟩) _ row heq <;> cases heq
  | deleteChannel auth channelId =>
    refine Issues.allSteps (issues_deleteChannel.mono ?_)
    rintro w (rfl | rfl) _ row heq <;> cases heq
  | reorderChannels auth serverId body =>
    refine Issues.allSteps (issues_reorderChannels.mono ?_)
    rintro w ⟨_, _, rfl⟩ _ row heq
    cases heq
  | deleteMe auth password now =>
    refine Issues.allSteps (issues_deleteMe.mono ?_)
    rintro w rfl _ row heq
    cases heq

/-! ## Runs -/

/-- the state after the statement has the tree -/
def LeavesTree (w : Stmt) (pg : Postgres) : Prop := ∀ n pg', Stmt.exec pg w = .ok (n, pg') → Tree pg'

theorem stepsOf_leavesTree {env : Env} {r : PgRequest} (hpg : Tree pg) (hr : StepsOf env WellPlaced pg r) :
    StepsOf env LeavesTree pg r := by
  have hsteps := AllSteps.with_inv (I := Tree)
    (fun w s n s' hw htree h => exec_tree (perform_eq_ok.1 h) htree hw.1 hw.2) (hr.and (stepsOf_insertFits env pg r)) hpg
  exact hsteps.mono fun w s ⟨hw, htree, _⟩ n s' h => exec_tree h htree hw.1 hw.2

theorem pgStep_tree {env : Env} {r : PgRequest} (hpg : Tree pg) (hr : StepsOf env LeavesTree pg r) :
    Tree (pgStep env pg r) :=
  allSteps_inv (fun _ _ n s' hw _ h => hw n s' (perform_eq_ok.1 h)) hr hpg

theorem stepsOf_wellPlaced {env : Env} {r : PgRequest} (hpg : Tree pg) (hr : StepsOf env LeavesTree pg r) :
    StepsOf env WellPlaced pg r := by
  have hsteps := AllSteps.with_inv (I := Tree) (fun _ _ n s' hw _ h => hw n s' (perform_eq_ok.1 h)) hr hpg
  refine hsteps.mono fun w s ⟨hw, htree, r, hexec⟩ => ?_
  have hexec := perform_eq_ok.1 hexec
  by_cases hins : ∃ row, w = .sql (.insertChannel row)
  · obtain ⟨row, rfl⟩ := hins
    trivial
  · rw [not_exists] at hins
    exact (exec_tree_iff hexec htree hins).1 (hw _ _ hexec)

theorem noServers_tree (users : Table User.id) : Tree (noServers users) where
  parent _ hc := absurd hc Table.not_mem_empty
  room _ := Nat.zero_le _

/-- the tree is there after every statement and after every request -/
def TreeThroughout (env : Env) (pg : Postgres) (rs : List PgRequest) : Prop :=
  Every (pgStep env) (fun pg r => StepsOf env LeavesTree pg r ∧ Tree (pgStep env pg r)) pg rs

/-- **The channel tree.** In a run of requests the tree is there in every state exactly if every UPDATE that gives a
channel a parent gives it another category of its server that has room. -/
theorem tree_iff (env : Env) (users : Table User.id) (rs : List PgRequest) :
    TreeThroughout env (noServers users) rs ↔
      Every (pgStep env) (fun pg r => StepsOf env WellPlaced pg r) (noServers users) rs := by
  have hrun : ∀ {pg : Postgres}, Tree pg → (TreeThroughout env pg rs ↔
      Every (pgStep env) (fun pg r => StepsOf env WellPlaced pg r) pg rs) := by
    induction rs with
    | nil => exact fun _ => Iff.rfl
    | cons r rs ih =>
      intro pg hpg
      rw [TreeThroughout, Every, Every]
      constructor
      · rintro ⟨⟨hleaves, htree⟩, hrest⟩
        exact ⟨stepsOf_wellPlaced hpg hleaves, (ih htree).1 hrest⟩
      · rintro ⟨hplaced, hrest⟩
        have hleaves := stepsOf_leavesTree hpg hplaced
        have htree := pgStep_tree hpg hleaves
        exact ⟨⟨hleaves, htree⟩, (ih htree).2 hrest⟩
  exact hrun (noServers_tree users)

theorem not_tree (h : ∃ c ∈ pg.channels.rows, ∃ p ∈ c.parentId.toList, p = c.id ∨ (p, c.serverId, 4) ∉ pg.places) :
    ¬ Tree pg := by
  intro htree
  obtain ⟨c, hc, p, hp, hbad⟩ := h
  obtain ⟨hother, hcategory⟩ := htree.parent c hc p (Option.mem_toList.1 hp)
  rcases hbad with hself | hnone
  · exact hother hself
  · exact hnone hcategory

/-- user 1 founds a server with the text channel 101 and the voice channel 102 -/
def firstTrace : List PgRequest := [.server (.createServer 1 ⟨"first", none, none⟩ 100 101 102 ⟨0⟩)]

/-- **A channel inside itself**, by `update_channel`, and one inside a voice channel, by `reorder_channels`. -/
theorem own_parent :
    ¬ Tree (Core.run (pgStep plainEnv) (noServers adaAndBob)
        (firstTrace ++ [.updateChannel 1 101 ⟨none, none, none, some (some 101), none, none, none, none, none⟩])) ∧
      ¬ Tree (Core.run (pgStep plainEnv) (noServers adaAndBob)
        (firstTrace ++ [.reorderChannels 1 100 [⟨101, 0, some (some 102)⟩]])) :=
  ⟨not_tree (by decide), not_tree (by decide)⟩

end Lumiere.Routes
