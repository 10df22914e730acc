import Lwm2mClient.Proofs.Service.Conduct

/-!
How the jobs of an engine end. The marks of a job, from its turn to its end, are one of its
courses, and they tell what has become of the registration and its renewal.
-/
namespace Lwm2mClient.Service

open Net Engine

/-- What a job has done to the registration and its renewal when it ends. -/
inductive Effect (t₀ : Track) (job : Job) (result : Bool) (t : Track) : Prop
  | retained (hretains : t₀.Retains t) (hmarks : superseded t.marks = false)
  | renewed (hresult : result = true) (hrenewed : Renewed t₀.generation t)
      (hmarks : EndsInSuccess t.marks)
  | gone (hresult : result = true → job = .operation .deregister)
      (hgone : Gone t₀.generation t) (hmarks : superseded t.marks = true)
  /-- A stop drops the renewal even where it fails to take the registration back. -/
  | dropped (hjob : job.isStop = true) (hbare : Bare t) (hlater : t₀.generation < t.generation)
      (hmarks : superseded t.marks = true)

/-- A job that had its turn on one track ends with a result on another. -/
structure Concludes (t₀ : Track) (job : Job) (result : Bool) (t : Track) : Prop where
  follows : job.Follows t.marks result
  effect : Effect t₀ job result t

variable {setup : Setup} {t₀ t t' : Track} {job : Job} {result : Bool} {marks : List Mark}

theorem Track.note_ended (t : Track) (hjob : job.isStop = false) (result : Bool) :
    t.note (.ended job result) = t :=
  Track.note_unmarked (by rw [Event.mark?, hjob]; rfl)

theorem Track.note_stopped (t : Track) (hjob : job.isStop = true) (result : Bool) :
    t.note (.ended job result) = t.mark .stopped :=
  Track.note_marked (by rw [Event.mark?, hjob]; rfl)

/-- A job that is to make sure of a registration ends. -/
theorem Concludes.of_concluded (hjob : job.isStop = false) (hstart : t.marks = [])
    (hfollows : job.Follows marks result) (hmarks : superseded marks = true)
    (hsuccess : result = true → EndsInSuccess marks) (hleaves : t.Leaves marks t')
    (hconcluded : Concluded t.generation result t') :
    Concludes t job result (t'.note (.ended job result)) := by
  have hall : t'.marks = marks := by rw [hleaves.marks, hstart, List.nil_append]
  rw [Track.note_ended t' hjob]
  refine ⟨hall.symm ▸ hfollows, ?_⟩
  cases result with
  | true => exact Effect.renewed rfl hconcluded.renewed (hall.symm ▸ hsuccess rfl)
  | false => exact Effect.gone nofun hconcluded.gone (hall.symm ▸ hmarks)

/-- A job ends that has left the registration and its renewal as they were. -/
theorem Concludes.of_retains (hjob : job.isStop = false) (hfollows : job.Follows t'.marks result)
    (hmarks : superseded t'.marks = false) (hretains : t.Retains t') :
    Concludes t job result (t'.note (.ended job result)) := by
  rw [Track.note_ended t' hjob]
  exact ⟨hfollows, Effect.retained hretains hmarks⟩

theorem Concludes.of_unsent (hjob : job.isStop = false) (hstart : t.marks = [])
    (hfollows : job.Follows [.bootstrapUnsent] false) (hdrift : t.Drift t') :
    Concludes t job false ((t'.mark .bootstrapUnsent).note (.ended job false)) := by
  have hall : (t'.mark .bootstrapUnsent).marks = [.bootstrapUnsent] := by
    rw [Track.mark, hdrift.marks, hstart]
    rfl
  refine Concludes.of_retains hjob (hall.symm ▸ hfollows) (by rw [hall]; rfl) ?_
  exact ⟨hdrift.id, hdrift.renewal, hdrift.generation, hdrift.ages⟩

/-- A stop ends. -/
theorem Concludes.of_stopped (hjob : job.isStop = true) (hsane : Sane t')
    (hle : t.generation ≤ t'.generation) (hfollows : Deregisters t'.marks result) :
    Concludes t job result (t'.cancelRenewal.note (.ended job result)) := by
  rw [Track.note_stopped _ hjob]
  have hlater : t.generation < (t'.cancelRenewal.mark .stopped).generation := by
    change t.generation < t'.cancelRenewal.generation
    rw [t'.cancelRenewal_generation]
    exact Nat.lt_succ_of_le hle
  refine ⟨?_, Effect.dropped hjob (hsane.cancelRenewal.mark _) hlater ?_⟩
  · have hstops : ∃ before, t'.marks ++ [.stopped] = before ++ [.stopped] ∧
        Deregisters before result := ⟨t'.marks, rfl, hfollows⟩
    cases job with
    | operation o => cases o <;> first | exact hstops | cases hjob
    | task due number work => cases hjob
  · change superseded (t'.marks ++ [.stopped]) = true
    rw [superseded_append]
    exact Bool.or_true _

namespace Tracks

/-- The work of a job that has its turn. -/
theorem body (hs : Sane t) (hstart : t.marks = []) (job : Job) :
    Tracks (Poised t) (job.body setup)
      (fun result t' => Concludes t job result (t'.note (.ended job result))) t := by
  have hmarks : superseded t.marks = false := by rw [hstart]; rfl
  have hready : Ready t t := ⟨hs, Or.inl ⟨Track.Retains.refl t, hmarks⟩⟩
  have hupdate : ∀ job : Job, job.isStop = false →
      (∀ marks result, Updates marks result → job.Follows marks result) →
      Tracks (Poised t) (Engine.updateNow setup)
        (fun result t' => Concludes t job result (t'.note (.ended job result))) t := by
    intro job hjob hfollows
    apply updateNow hs hmarks
    intro marks result t' hupdates hleaves hconcluded
    refine Concludes.of_concluded hjob hstart
      (hfollows marks result hupdates) hupdates.superseded ?_
      hleaves hconcluded
    rintro rfl
    exact hupdates.endsInSuccess
  have hstop : ∀ job : Job, job.isStop = true →
      Tracks (Poised t)
        (Engine.deregisterNow setup >>= fun result => Engine.cancelRenewal >>= fun _ =>
          pure result)
        (fun result t' => Concludes t job result (t'.note (.ended job result))) t := by
    intro job hjob
    refine bind ?_
    apply deregisterNow hready
    · intro marks result t' hderegisters _ hall hretains
      rw [hstart, List.nil_append] at hall
      refine bind ?_
      apply cancelRenewal
      exact Concludes.of_stopped hjob (hs.retains hretains)
        (Nat.le_of_eq hretains.generation.symm)
        (hall.symm ▸ hderegisters)
    · intro marks t' hderegisters _ hleaves hgone
      have hall : t'.marks = marks := by rw [hleaves.marks, hstart, List.nil_append]
      refine bind ?_
      apply cancelRenewal
      exact Concludes.of_stopped hjob hgone.bare.sane hleaves.generation
        (hall.symm ▸ hderegisters)
  cases job with
  | operation o =>
    cases o with
    | register =>
      apply registerNow hready
      intro marks result t' hregisters hleaves hconcluded
      refine Concludes.of_concluded rfl hstart hregisters hregisters.superseded ?_
        hleaves hconcluded
      rintro rfl
      exact hregisters.endsInSuccess
    | update => exact hupdate (.operation .update) rfl fun _ _ h => h
    | bootstrap =>
      apply bootstrapNow hready
      · intro t' hdrift
        exact Concludes.of_unsent rfl hstart Bootstraps.unsent hdrift
      · intro marks result t' hbootstraps hsuperseded hleaves hconcluded
        refine Concludes.of_concluded rfl hstart hbootstraps hsuperseded ?_ hleaves hconcluded
        rintro rfl
        exact hbootstraps.endsInSuccess
    | deregister =>
      apply deregisterNow hready
      · intro marks result t' hderegisters hsuperseded hall hretains
        rw [hstart, List.nil_append] at hall
        exact Concludes.of_retains rfl (hall.symm ▸ hderegisters)
          (hall.symm ▸ hsuperseded) hretains
      · intro marks t' hderegisters hsuperseded hleaves hgone
        have hall : t'.marks = marks := by rw [hleaves.marks, hstart, List.nil_append]
        rw [Track.note_ended t' rfl]
        exact ⟨hall.symm ▸ hderegisters,
          Effect.gone (fun _ => rfl) hgone (hall.symm ▸ hsuperseded)⟩
    | stop => exact hstop (.operation .stop) rfl
    | shutdown => exact hstop (.operation .shutdown) rfl
  | task due number work =>
    cases work with
    | start =>
      apply startNow hready
      · intro t' hdrift
        exact Concludes.of_unsent rfl hstart (Starts.unknown Bootstraps.unsent) hdrift
      · intro marks result t' hstarts hsuperseded hleaves hconcluded
        refine Concludes.of_concluded rfl hstart hstarts hsuperseded ?_ hleaves hconcluded
        rintro rfl
        exact hstarts.endsInSuccess
    | renewal generation =>
      refine bind ?_
      apply registration
      split
      · refine bind ?_
        apply log_unmarked rfl
        exact Concludes.of_retains rfl (Or.inl ⟨hstart, rfl⟩) hmarks (Track.Retains.refl t)
      · exact hupdate (.task due number (.renewal generation)) rfl fun _ _ h => Or.inr h

end Tracks

/-- What happens aside changes nothing of how a job has ended. -/
theorem Concludes.drift (h : Concludes t₀ job result t) (hdrift : t.Drift t') :
    Concludes t₀ job result t' := by
  refine ⟨hdrift.marks.symm ▸ h.follows, ?_⟩
  have hretains := hdrift.toRetains
  cases h.effect with
  | retained hretains' hmarks =>
    exact Effect.retained (hretains'.trans hretains) (hdrift.marks.symm ▸ hmarks)
  | renewed hresult hrenewed hmarks =>
    refine Effect.renewed hresult ⟨hrenewed.sane.retains hretains, ?_, ?_⟩
      (hdrift.marks.symm ▸ hmarks)
    · rw [hretains.id]
      exact hrenewed.held
    · rw [hretains.generation]
      exact hrenewed.later
  | gone hresult hgone hmarks =>
    exact Effect.gone hresult (hgone.retains hretains) (hdrift.marks.symm ▸ hmarks)
  | dropped hjob hbare hlater hmarks =>
    exact Effect.dropped hjob (hbare.retains hretains) (hretains.generation ▸ hlater)
      (hdrift.marks.symm ▸ hmarks)

end Lwm2mClient.Service
