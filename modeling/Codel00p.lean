import Codel00p.Cli.Update
import Codel00p.Cloud.Freshness
import Codel00p.Cloud.MissingProject
import Codel00p.Cron.Schedule
import Codel00p.Gateway.Authentication
import Codel00p.Gateway.OneShot
import Codel00p.Gateway.Robustness
import Codel00p.Harness.Background
import Codel00p.Harness.Bounds
import Codel00p.Harness.Checkpoints
import Codel00p.Harness.Coercion
import Codel00p.Harness.Compaction
import Codel00p.Harness.Disclosure
import Codel00p.Harness.Dispatch
import Codel00p.Harness.FailureBudget
import Codel00p.Harness.Fidelity
import Codel00p.Harness.Learning
import Codel00p.Harness.Mediation
import Codel00p.Harness.Notes
import Codel00p.Harness.OutputCaps
import Codel00p.Harness.Pages
import Codel00p.Harness.PatchBatch
import Codel00p.Harness.PatchSafety
import Codel00p.Harness.Preview
import Codel00p.Harness.Relocation
import Codel00p.Harness.Resolution
import Codel00p.Harness.Scope
import Codel00p.Harness.ScriptValue
import Codel00p.Harness.Ssh
import Codel00p.Harness.StepReferences
import Codel00p.Harness.Tally
import Codel00p.Harness.Verdict
import Codel00p.Mcp.Correlation
import Codel00p.Mcp.RoundTrip
import Codel00p.Mcp.Supervisor
import Codel00p.Memory.Atomicity
import Codel00p.Memory.Frame
import Codel00p.Memory.NonBlank
import Codel00p.Memory.Ranked
import Codel00p.Memory.Revisions
import Codel00p.Provider.Alias
import Codel00p.Provider.Chunking
import Codel00p.Provider.Enforcement
import Codel00p.Provider.Fallback
import Codel00p.Provider.Override
import Codel00p.Provider.Signing
import Codel00p.Provider.StreamSlots
import Codel00p.Provider.StreamedText
import Codel00p.Skill.Preservation
import Codel00p.Storage.AppendLog
import Codel00p.Storage.Equivalence
import Codel00p.Storage.Versions
