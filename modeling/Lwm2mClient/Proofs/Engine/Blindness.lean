import Lwm2mClient.Proofs.Engine.Parts
import Lwm2mClient.Proofs.Store.Veils

/-!
Programs that are blind to keys. Wherever such a program reads an object, it goes on in the same
way with what was read and with what is left of that under the veil. Lifecycle work looks for
servers and describes objects, and both is done without a key; so all of it is blind.
-/
namespace Lwm2mClient

open Net Program

/-- What an answer is under the veil. -/
def Call.veilAnswer : (c : Call) → c.Answer → c.Answer
  | .readObject object, snapshot => snapshot.map (Object.veilAs object)
  | _, a => a

/-- Whether the answers to a call are the same under the veil. -/
def Call.isClear (c : Call) : Prop := ∀ a, c.veilAnswer a = a

/-- Whatever a program is answered, it goes on as it does under the veil. -/
def Program.IsBlind {α : Type} : Program α → Prop
  | .done _ => True
  | .call c next => (∀ a, next (c.veilAnswer a) = next a) ∧ ∀ a, (next a).IsBlind

namespace Program.IsBlind

variable {α β : Type} {p : Program α}

theorem bind {f : α → Program β} (h : p.IsBlind)
    (hf : ∀ value, (f value).IsBlind) : (p >>= f).IsBlind := by
  induction p with
  | done value => exact hf value
  | call c next ih => exact ⟨fun a => congrArg (· >>= f) (h.1 a), fun a => ih a (h.2 a)⟩

theorem perform {c : Call} (h : c.isClear) : (Program.perform c).IsBlind :=
  ⟨fun a => congrArg done (h a), fun _ => trivial⟩

theorem log (line : Log.Line) : (Program.log line).IsBlind := perform fun _ => rfl

theorem logAll (lines : List Log.Line) : (Program.logAll lines).IsBlind := by
  induction lines with
  | nil => exact trivial
  | cons line rest ih => exact (log line).bind fun _ => ih

theorem of_asks {calls : Call → Prop} {post : α → Prop} (h : p.Asks calls post)
    (hcalls : ∀ c, calls c → c.isClear) : p.IsBlind := by
  induction p with
  | done value => exact trivial
  | call c next ih => exact ⟨fun a => congrArg next (hcalls c h.1 a), fun a => ih a (h.2 a)⟩

theorem upkeep {post : α → Prop} (h : p.Asks Call.isUpkeep post) : p.IsBlind :=
  of_asks h fun c hc a => by cases c <;> first | rfl | exact absurd hc id

end Program.IsBlind

/-! ### Reading -/

theorem findServers_isBlind (hosts : Hosts) : (findServers hosts).IsBlind := by
  refine ⟨fun securities => ?_, fun securities => ?_⟩
  · cases securities with
    | none => rfl
    | some securities =>
      refine congrArg (Program.call (.readObject ObjectId.server)) (funext fun servers => ?_)
      cases servers with
      | none => rfl
      | some servers =>
        change (logAll (Extraction.lines hosts securities.veil servers) >>= fun _ =>
          done (some (Extraction.servers hosts securities.veil servers))) = _
        rw [Extraction.lines_veil, Extraction.servers_veil]
        rfl
  · cases securities with
    | none => exact trivial
    | some securities =>
      refine ⟨fun servers => ?_, fun servers => ?_⟩
      · cases servers <;> rfl
      · cases servers with
        | none => exact trivial
        | some servers => exact (IsBlind.logAll _).bind fun _ => trivial

theorem readLinks_isBlind (objects : List NumericId) : (readLinks objects).IsBlind := by
  induction objects with
  | nil => exact trivial
  | cons object rest ih =>
    refine ⟨fun snapshot => ?_, fun snapshot => ih.bind fun _ => trivial⟩
    change (readLinks rest >>= fun links =>
      done (Links.ofObject object (snapshot.map (Object.veilAs object)) ++ links)) = _
    rw [Links.ofObject_veil]
    rfl

theorem describeObjects_isBlind : describeObjects.IsBlind :=
  (IsBlind.perform fun _ => rfl).bind fun _ => (readLinks_isBlind _).bind fun _ => trivial

theorem Purge.purgeInstances_isBlind (sender : SocketAddress) (object : NumericId)
    (instances : List ObjectInstance) : (purgeInstances sender object instances).IsBlind := by
  induction instances with
  | nil => exact trivial
  | cons i rest ih =>
    simp only [purgeInstances]
    split
    · exact (IsBlind.log _).bind fun _ => ih
    · refine (IsBlind.perform fun _ => rfl).bind fun code => ?_
      split
      · exact (IsBlind.log _).bind fun _ => ih
      · exact ih

theorem Purge.purgeObjects_isBlind (sender : SocketAddress) (objects : List NumericId) :
    (purgeObjects sender objects).IsBlind := by
  induction objects with
  | nil => exact trivial
  | cons object rest ih =>
    refine ⟨fun snapshot => ?_, fun snapshot => ?_⟩
    · cases snapshot with
      | none => rfl
      | some o =>
        have hinstances : purgeInstances sender object (o.veilAs object).instances.values =
            purgeInstances sender object o.instances.values := by
          unfold Object.veilAs
          split
          · rw [Object.veil_values, purgeInstances_veil]
          · rfl
        exact congrArg (fun p : Program Unit => p >>= fun _ =>
          purgeObjects sender rest) hinstances
    · cases snapshot with
      | none => exact ih
      | some o => exact (purgeInstances_isBlind sender object _).bind fun _ => ih

theorem Purge.purge_isBlind (sender : SocketAddress) : (purge sender).IsBlind :=
  (IsBlind.perform fun _ => rfl).bind fun _ => (purgeObjects_isBlind sender _).bind fun _ =>
    IsBlind.log _

/-! ### Operations -/

namespace Engine

variable (setup : Setup)

theorem blind_sequential : Sequential fun p => p.IsBlind where
  done _ := trivial
  bind := IsBlind.bind
  line := IsBlind.log
  upkeep := IsBlind.upkeep

theorem requireServers_isBlind : (requireServers setup).IsBlind := by
  refine (findServers_isBlind setup.hosts).bind fun found => ?_
  cases found <;> exact trivial

theorem requireBootstrap_isBlind : (requireBootstrap setup).IsBlind := by
  refine (requireServers_isBlind setup).bind fun found => ?_
  cases found with
  | error e => exact trivial
  | ok servers =>
    dsimp only
    split <;> exact trivial

theorem knowsManagement_isBlind : (knowsManagement setup).IsBlind := by
  refine (findServers_isBlind setup.hosts).bind fun found => ?_
  cases found <;> exact trivial

theorem blind_manages : Manages setup fun p => p.IsBlind where
  toSequential := blind_sequential
  requireManagement := (requireServers_isBlind setup).bind fun _ => trivial
  describeObjects := describeObjects_isBlind
  ask server request _ := by
    unfold ask
    split
    · exact trivial
    · refine (IsBlind.log _).bind fun _ => (IsBlind.perform fun _ => rfl).bind fun answer => ?_
      cases answer <;> exact trivial

theorem isClear_of_isOfTurn {c : Call} (hc : c.isOfTurn) : c.isClear := by
  cases c <;> first | exact fun _ => rfl | exact absurd hc id

theorem isClear_of_isOfGate {c : Call} (hc : c.isOfGate) : c.isClear := by
  cases c <;> first | exact fun _ => rfl | exact absurd hc id

theorem blind_combines : Combines setup (fun p => p.IsBlind) fun p => p.IsBlind where
  toSequential := blind_sequential
  knowsManagement := knowsManagement_isBlind setup
  sendRegister := (blind_manages setup).sendRegister
  sendUpdate := (blind_manages setup).sendUpdate
  deregisterNow := (blind_manages setup).deregisterNow
  ofPart := id
  andThen := IsBlind.bind
  bootstrapNow := blind_sequential.bootstrapNow (requireBootstrap_isBlind setup)
    (fun _ _ _ _ => IsBlind.perform fun _ => rfl)
    (fun _ hc => IsBlind.perform (isClear_of_isOfGate hc))
    (blind_sequential.registerNow (blind_manages setup).sendRegister)

theorem operation_isBlind (o : Operation) : (o.program setup).IsBlind :=
  (blind_combines setup).operation (fun _ hc => IsBlind.perform (isClear_of_isOfTurn hc))
    (fun _ hc => IsBlind.perform (isClear_of_isOfGate hc)) o

theorem work_isBlind (work : Work) : (Engine.work setup work).IsBlind :=
  (blind_combines setup).work (fun _ hc => IsBlind.perform (isClear_of_isOfTurn hc)) work

end Engine
end Lwm2mClient
