import Lwm2mClient.Bootstrap.Gate
import Lwm2mClient.Program
import Lwm2mClient.Timeline.Scheduler

/-!
The state of a client that its lifecycle work reads and changes: the registration, the gate of
bootstrap sessions and the scheduler. Calls that concern nothing else are answered from it at
once; the others are left to what surrounds the client.
-/
namespace Lwm2mClient

structure Client (τ : Type) where
  registration : Registration := {}
  gate : Gate := {}
  scheduler : Scheduler τ

namespace Client

variable {τ : Type}

/-- An answer, the state after it, and what is reported. -/
structure Reply (τ α : Type) where
  answer : α
  client : Client τ
  lines : List Log.Line := []

/-- Answers a call from the state alone, if it can be. Work is put on the timeline as `wrap`
says. -/
def answer? (wrap : Work → τ) (client : Client τ) : (c : Call) → Option (Reply τ c.Answer)
  | .log line => some ⟨(), client, [line]⟩
  | .sessionActive => some ⟨client.gate.isActive, client, []⟩
  | .openSession peer =>
    let o := client.gate.tryOpen peer
    some ⟨o.result, { client with gate := o.gate }, o.lines⟩
  | .closeSession =>
    let o := client.gate.close
    some ⟨(), { client with gate := o.gate }, o.lines⟩
  | .registration => some ⟨client.registration, client, []⟩
  | .setRegistration r => some ⟨(), { client with registration := r }, []⟩
  | .schedule delay work =>
    let (handle, scheduler) := client.scheduler.schedule delay (wrap work)
    some ⟨handle, { client with scheduler := scheduler }, []⟩
  | .cancelTask handle =>
    some ⟨(), { client with scheduler := client.scheduler.cancel handle }, []⟩
  | .shutDownTimeline =>
    some ⟨(), { client with scheduler := client.scheduler.shutdown }, []⟩
  | .acquire | .release | .objectIds | .readObject _ | .deleteInstance .. | .send ..
  | .awaitFinish _ => none

end Client
end Lwm2mClient
