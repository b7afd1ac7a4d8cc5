/-
`kick_member`, `leave_server` and `create_ban` with the events that they publish once the database is written.
-/
import Lumiere.Routes.Servers
import Lumiere.Routes.World

namespace Lumiere.Routes.Announced

open Lumiere.Core Lumiere.Core.Prog Lumiere.Routes

def kickMember (auth serverId userId : ℤ) : Route Unit := do
  onPg (Routes.kickMember auth serverId userId)
  execute (.publish ⟨serverEvents serverId, .guildMemberRemove serverId userId⟩)
  execute (.publish ⟨userGuilds userId, .guildDelete serverId⟩)

def leaveServer (auth serverId : ℤ) : Route Unit := do
  onPg (Routes.leaveServer auth serverId)
  execute (.publish ⟨serverEvents serverId, .guildMemberRemove serverId auth⟩)

def createBan (auth serverId userId : ℤ) (reason : Option String) : Route Unit := do
  onPg (Routes.createBan auth serverId userId reason)
  execute (.publish ⟨serverEvents serverId, .guildBanAdd serverId userId⟩)
  execute (.publish ⟨userGuilds userId, .guildDelete serverId⟩)

end Lumiere.Routes.Announced
