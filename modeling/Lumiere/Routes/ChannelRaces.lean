/-
Deletions of channels side by side. `delete_channel` counts the text channels of the server in one statement and deletes
in another, and other requests delete in between.

- `StillMore`: the count that was checked is still more than one when the channel is deleted. `text_kept_iff`: a server
  keeps a text channel over a run exactly if this holds of each deletion of one of its text channels.
- `both_deleted`: two deletions that count before either deletes.
-/
import Lumiere.Core.Calls
import Lumiere.Routes.Concurrent
import Lumiere.Routes.Structure

namespace Lumiere.Routes

open Lumiere.Core Lumiere.Core.Prog Lumiere.Models Lumiere.Db

inductive ChannelWrite where
  | create (auth serverId : ℤ) (body : CreateChannelRequest) (channelId : ℤ) (now : DateTime)
  | delete (auth channelId : ℤ)

def ChannelWrite.handle (unicode : Unicode) : ChannelWrite → PgHandler Unit
  | .create auth serverId body channelId now => do
    let _ ← createChannel unicode auth serverId body channelId now
    pure ()
  | .delete auth channelId => deleteChannel auth channelId

abbrev ChannelCalls := Calls ChannelWrite Postgres Stmt AppError

/-- requests are issued at any time; `e` is the error of a command that is made to fail -/
def channelStep (unicode : Unicode) (e : AppError) : ChannelCalls → Move ChannelWrite → ChannelCalls :=
  Calls.step (ChannelWrite.handle unicode) perform e

/-- `SELECT COUNT(*) FROM channels WHERE server_id = $1 AND type = 0` -/
def textCount (pg : Postgres) (serverId : ℤ) : ℕ := pg.channels.count fun c => c.serverId = some serverId && c.type = 0

/-- a text channel of the server is deleted while there is another, as `delete_channel` has checked before -/
def StillMore (serverId : ℤ) : Stmt → Postgres → Prop
  | .deleteChannel channelId, pg => (channelId, some serverId, 0) ∈ pg.places → 1 < textCount pg serverId
  | _, _ => True

instance (serverId : ℤ) : (w : Stmt) → (pg : Postgres) → Decidable (StillMore serverId w pg)
  | .deleteChannel channelId, pg =>
    inferInstanceAs (Decidable ((channelId, some serverId, 0) ∈ pg.places → 1 < textCount pg serverId))
  | .sql _, _ | .updateChannel .., _ | .moveChannel .., _ | .clearParent _, _ | .insertOverride _, _
  | .deleteOverrides _, _ | .softDeleteUser .., _ => inferInstanceAs (Decidable True)

/-- what the move executes, if anything -/
def MovesStillMore (serverId : ℤ) (s : ChannelCalls) (o : Move ChannelWrite) : Prop :=
  ∀ w ∈ s.executes o, StillMore serverId w s.shared

instance (serverId : ℤ) (s : ChannelCalls) (o : Move ChannelWrite) : Decidable (MovesStillMore serverId s o) :=
  inferInstanceAs (Decidable (∀ w ∈ s.executes o, StillMore serverId w s.shared))

variable {pg pg' : Postgres} {n : ℕ} {serverId channelId : ℤ} {w : Stmt}

/-! ## Statements -/

/-- a text channel of the server, as a place -/
def isText (serverId : ℤ) (c : ℤ × Option ℤ × ℤ) : Bool := c.2.1 = some serverId && c.2.2 = 0

theorem textCount_eq : textCount pg serverId = pg.places.countP (isText serverId) := by
  rw [Postgres.places, List.countP_map]
  rfl

theorem places_nodup : pg.places.Nodup := by
  refine List.Nodup.of_map Prod.fst ?_
  rw [Postgres.places, List.map_map]
  exact pg.channels.nodup

/-- a channel that is deleted counts if it is a text channel of the server -/
theorem textCount_deleteChannel (h : Stmt.exec pg (.deleteChannel channelId) = .ok (n, pg')) :
    textCount pg serverId = textCount pg' serverId + if (channelId, some serverId, 0) ∈ pg.places then 1 else 0 := by
  have hplaces : pg'.places = pg.places.filter fun c => c.1 ≠ channelId := Stmt.exec_places h
  have hgone : (pg.places.filter fun c => !decide (c.1 ≠ channelId)).countP (isText serverId) =
      pg.places.count (channelId, some serverId, 0) := by
    rw [List.countP_filter, List.count]
    refine List.countP_congr fun ⟨id, server, type⟩ _ => ?_
    simp [isText, and_comm]
  rw [textCount_eq, textCount_eq, hplaces, List.countP_eq_countP_filter_add _ _ fun c => c.1 ≠ channelId,
    ← places_nodup.count]
  exact congrArg _ hgone

/-- the other statements of the two handlers delete no channel -/
def SparesText : Stmt → Prop
  | .deleteChannel _ | .sql (.deleteServer _) => False
  | _ => True

theorem textCount_le (h : Stmt.exec pg w = .ok (n, pg')) (hw : SparesText w) :
    textCount pg serverId ≤ textCount pg' serverId := by
  have hplaces := Stmt.exec_places h
  have hsame : pg'.places = pg.places → textCount pg serverId ≤ textCount pg' serverId := fun he => by
    rw [textCount_eq, textCount_eq, he]
  cases w with
  | sql w =>
    cases w with
    | insertChannel row =>
      simp only at hplaces
      rw [textCount_eq, textCount_eq, hplaces, List.countP_append]
      exact Nat.le_add_right _ _
    | deleteServer id => exact hw.elim
    | _ => exact hsame hplaces
  | deleteChannel id => exact hw.elim
  | _ => exact hsame hplaces

theorem keepsText_of_spares (hw : SparesText w) :
    (execute w : PgHandler Unit).Keeps perform (StillMore serverId) fun pg => 1 ≤ textCount pg serverId :=
  keeps_execute fun _ _ _ _ hpg h => hpg.trans (textCount_le (perform_eq_ok.1 h) hw)

theorem keepsText_deleteChannel :
    (execute (.deleteChannel channelId) : PgHandler Unit).Keeps perform (StillMore serverId)
      fun pg => 1 ≤ textCount pg serverId := by
  refine keeps_execute fun pg n pg' hmore hpg h => ?_
  have hcount : textCount pg serverId = _ := textCount_deleteChannel (perform_eq_ok.1 h)
  split_ifs at hcount with hplace
  · have hmore := hmore hplace
    omega
  · omega

/-! ## Requests -/

variable {unicode : Unicode}

theorem keepsText_createOverrides {overrides : List PermissionOverrideInput} :
    (createOverrides channelId overrides).Keeps perform (StillMore serverId) fun pg => 1 ≤ textCount pg serverId :=
  keeps_forM fun _ _ => keeps_bind (ReadOnly.keeps (issues_failIf _ _)) fun _ => keepsText_of_spares trivial

theorem keepsText_handle (r : ChannelWrite) :
    (r.handle unicode).Keeps perform (StillMore serverId) fun pg => 1 ≤ textCount pg serverId := by
  cases r with
  | create auth server body channelId now =>
    refine keeps_bind ?_ fun _ => trivial
    refine keeps_bind (readOnly_sql readOnly_createChannelChecks).keeps fun _ => ?_
    refine keeps_bind (keepsText_of_spares trivial) fun _ => ?_
    refine keeps_bind ?_ fun _ => (readOnly_sql readOnly_fetchChannel).keeps
    rcases body.permissionOverrides with _ | overrides
    · trivial
    · exact keepsText_createOverrides
  | delete auth channelId =>
    refine keeps_bind (readOnly_sql readOnly_deleteChannelChecks).keeps fun ⟨_, type⟩ => ?_
    refine keeps_bind ?_ fun _ => keepsText_deleteChannel
    rw [when]
    split_ifs
    · exact keepsText_of_spares trivial
    · trivial

/-! ## Runs -/

variable {e : AppError} {s : ChannelCalls} {o : Move ChannelWrite}

/-- a deletion of the last text channel shows -/
theorem stillMore_of_step (h : 1 ≤ textCount (channelStep unicode e s o).shared serverId) :
    MovesStillMore serverId s o := by
  intro w hw
  cases w with
  | deleteChannel channelId =>
    intro hplace
    have hexec : Stmt.exec s.shared (.deleteChannel channelId) =
      .ok (_, s.shared.deleteChannels fun c => c.id = channelId) := rfl
    have hcount : textCount s.shared serverId = _ := textCount_deleteChannel hexec
    rw [channelStep, Calls.shared_step hw (perform_eq_ok.2 hexec)] at h
    rw [if_pos hplace] at hcount
    omega
  | _ => trivial

/-- **A server keeps a text channel as long as every deletion of one still finds another.** -/
theorem text_kept_iff (unicode : Unicode) (e : AppError) (pg : Postgres) (serverId : ℤ)
    (h : 1 ≤ textCount pg serverId) (ops : List (Move ChannelWrite)) :
    (∀ l, l <+: ops → 1 ≤ textCount (Core.run (channelStep unicode e) ⟨[], pg⟩ l).shared serverId) ↔
      Every (channelStep unicode e) (MovesStillMore serverId) ⟨[], pg⟩ ops := by
  constructor
  · exact every_of_prefixes (I := fun s : ChannelCalls => 1 ≤ textCount s.shared serverId) fun _ _ => stillMore_of_step
  · intro hops l hl
    refine (run_inv_of_every (I := fun s : ChannelCalls =>
      (∀ c ∈ s.calls, c.rest.Keeps perform (StillMore serverId) fun pg => 1 ≤ textCount pg serverId) ∧
        1 ≤ textCount s.shared serverId) ?_ ⟨?_, h⟩ (hops.of_prefix hl)).2
    · intro s o ho hs
      exact ⟨Calls.keeps_step keepsText_handle hs.1, Calls.inv_step hs.1 hs.2 ho⟩
    · intro c hc
      cases hc

/-- server 100 of user 1, with the text channel 101 -/
def firstChannels : Postgres :=
  Core.run (pgStep plainEnv) (noServers onlyAda)
    [.server (.createServer 1 ⟨"first", none, none⟩ 100 101 102 ⟨0⟩)]

/-- user 1 creates the text channel 103 -/
def secondChannelTrace : List (Move ChannelWrite) :=
  .issue (.create 1 100 ⟨"second", none, none, none, none, none, none, none, none, none⟩ 103 ⟨0⟩) ::
    List.replicate 9 (.advance 0)

def oneByOneTrace : List (Move ChannelWrite) :=
  secondChannelTrace ++ .issue (.delete 1 101) :: List.replicate 5 (.advance 1) ++
    .issue (.delete 1 103) :: List.replicate 5 (.advance 2)

theorem text_kept_oneByOne : 1 ≤ textCount firstChannels 100 ∧
    ∀ l, l <+: oneByOneTrace →
      1 ≤ textCount (Core.run (channelStep plainEnv.unicode (.notFound "")) ⟨[], firstChannels⟩ l).shared 100 :=
  have h : 1 ≤ textCount firstChannels 100 := by decide
  ⟨h, (text_kept_iff plainEnv.unicode (.notFound "") firstChannels 100 h oneByOneTrace).2 (by decide)⟩

/-- both deletions count two text channels, and then both delete -/
def bothDeletedTrace : List (Move ChannelWrite) :=
  secondChannelTrace ++ [.issue (.delete 1 101), .issue (.delete 1 103)] ++ List.replicate 4 (.advance 1) ++
    List.replicate 4 (.advance 2) ++ [.advance 1, .advance 2]

theorem both_deleted :
    1 ≤ textCount firstChannels 100 ∧
      textCount (Core.run (channelStep plainEnv.unicode (.notFound "")) ⟨[], firstChannels⟩ bothDeletedTrace).shared
        100 = 0 := by
  decide

end Lumiere.Routes
