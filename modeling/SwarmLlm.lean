import SwarmLlm.Credit.Ticks
import SwarmLlm.Credit.EscrowRun
import SwarmLlm.Credit.HonestCalls
import SwarmLlm.Credit.LostUpdate
import SwarmLlm.Credit.SettleOnce
import SwarmLlm.Credit.StaleWrite
import SwarmLlm.Pool.MemberCharges
import SwarmLlm.Pool.OwnerCommands
import SwarmLlm.Pool.Replay
import SwarmLlm.Pool.RosterRun
import SwarmLlm.Pool.SignedPayloads
import SwarmLlm.Crypto.ConcurrentOpen
import SwarmLlm.Crypto.Rekey
import SwarmLlm.Crypto.RelayGuard
import SwarmLlm.Network.AadBinding
import SwarmLlm.Network.DraftTrees
import SwarmLlm.Network.ResultDecoding
import SwarmLlm.Inference.TreeWire
import SwarmLlm.Inference.HarmonyStream
import SwarmLlm.Inference.Lossless
import SwarmLlm.Inference.PrefixAnswers
import SwarmLlm.Inference.Reassembly
import SwarmLlm.Inference.ShardLayout
import SwarmLlm.Inference.SlotTable
import SwarmLlm.Api.CloserRepair
import SwarmLlm.Api.ProviderUrl
import SwarmLlm.Api.ReleasedPrefix
import SwarmLlm.Daemon.ChunkTransfers
import SwarmLlm.Daemon.RetainedBounds
import SwarmLlm.Daemon.StreamRefusals
import SwarmLlm.Daemon.WaitSweeps
import SwarmLlm.Scheduler.PromptTrust
import SwarmLlm.Model.HashOrigins
import SwarmLlm.Model.ManifestContent
import SwarmLlm.Storage.Trees
import SwarmLlm.Update
