import YaDiskSync.TokenRefresh

/-! The upload of one file over the network. Two loops make their attempts: the outer one asks for
a fresh link after a conflict, the inner one sends the source to a link. -/
namespace YaDiskSync

open Prog

def Exchange.putSucceeds : Exchange → Bool
  | ⟨.put ..,.ok response⟩ => response.isSuccess
  | _ => false

/-- No source is accepted in these exchanges. -/
def Unaccepted (events : List Exchange) : Prop := ∀ x ∈ events, x.putSucceeds = false

theorem Unaccepted.append {before after : List Exchange} (h : Unaccepted before)
    (h' : Unaccepted after) : Unaccepted (before ++ after) := by
  intro x hx
  rcases List.mem_append.mp hx with hx | hx
  · exact h x hx
  · exact h' x hx

/-- The steps of a run are among those its program may ask. -/
theorem HttpRun.only {α : Type} {p : Http α} {s s' : HttpWorld} {result : Except HttpError α}
    {S : HttpEffect → Prop} (hp : Only S p.run) (h : HttpRun p s result s') :
    ∃ events, s'.trace = s.trace ++ events ∧ ∀ x ∈ events, S x.1 := by
  have hstable : Stable (fun _ _ : HttpWorld => False) fun t =>
      ∃ events, t.trace = s.trace ++ events ∧ ∀ x ∈ events, S x.1 := fun _ _ _ hfalse => hfalse.elim
  refine Only.triple hp hstable (C:=fun _ => True) (fun _ _ => trivial) ?_ s _ s'
    ⟨[],by simp,by simp⟩ h
  rintro e he t answer t' ⟨events,htrace,hall⟩ ⟨_,rfl⟩
  refine ⟨events ++ [⟨e,answer⟩],?_,?_⟩
  · rw [HttpWorld.record,htrace,List.append_assoc]
  · intro x hx
    rcases List.mem_append.mp hx with hx | hx
    · exact hall x hx
    · obtain rfl := List.mem_singleton.mp hx
      exact he

section Unique

variable {β : Type} {p : Prog HttpEffect HttpEffect.Answer β} {s s₁ s₂ : HttpWorld} {b₁ b₂ : β}
  {trace : List Exchange}

theorem exec_trace_grows (h : Exec HttpWorld.Step (fun _ _ => False) p s (some b₁) s₁) :
    s.trace <+: s₁.trace := by
  induction p generalizing s with
  | ret b =>
    cases h
    exact List.prefix_rfl
  | ask e k ih =>
    cases h with
    | ask henv hstep hrest =>
      obtain rfl := HttpWorld.stays henv
      obtain ⟨_,rfl⟩ := hstep
      exact (List.prefix_append ..).trans (ih _ hrest)

/-- The exchanges of a run determine it. -/
theorem exec_unique (h₁ : Exec HttpWorld.Step (fun _ _ => False) p s (some b₁) s₁)
    (h₂ : Exec HttpWorld.Step (fun _ _ => False) p s (some b₂) s₂)
    (ht₁ : s₁.trace <+: trace) (ht₂ : s₂.trace <+: trace) : b₁ = b₂ ∧ s₁ = s₂ := by
  induction p generalizing s with
  | ret b =>
    cases h₁
    cases h₂
    exact ⟨rfl,rfl⟩
  | ask e k ih =>
    cases h₁ with
    | @ask _ _ _ _ _ _ answer₁ _ henv₁ hstep₁ hrest₁ =>
      cases h₂ with
      | @ask _ _ _ _ _ _ answer₂ _ henv₂ hstep₂ hrest₂ =>
        obtain rfl := HttpWorld.stays henv₁
        obtain rfl := HttpWorld.stays henv₂
        obtain ⟨_,rfl⟩ := hstep₁
        obtain ⟨_,rfl⟩ := hstep₂
        -- both answers are the next of the common exchanges
        have hnext₁ := (exec_trace_grows hrest₁).trans ht₁
        have hnext₂ := (exec_trace_grows hrest₂).trans ht₂
        have hsame := (List.prefix_of_prefix_length_le hnext₁ hnext₂ (by simp
          [HttpWorld.record])).eq_of_length (by simp [HttpWorld.record])
        obtain ⟨_,hlast⟩ := List.append_inj' hsame rfl
        obtain rfl : answer₁ = answer₂ := by
          simpa using hlast
        exact ih _ hrest₁ hrest₂

end Unique

namespace HttpYandexDiskClient

open HttpRun

variable {client : HttpYandexDiskClient} {s s' : HttpWorld}

/-- Not one of the steps that send a source. -/
def NoPut (e : HttpEffect) : Prop := ∀ url source, e ≠ .put url source

theorem unaccepted_of_noPut {events : List Exchange} (h : ∀ x ∈ events, NoPut x.1) :
    Unaccepted events := by
  rintro ⟨e,answer⟩ hx
  cases e with
  | put url source => exact absurd rfl (h _ hx url source)
  | _ => rfl

theorem only_perform {S : HttpEffect → Prop} {e : HttpEffect} (h : S e) :
    Only S (perform e).run :=
  ⟨h,fun _ => trivial⟩

theorem loadRequiredToken_noPut : Only NoPut client.loadRequiredToken.run := by
  refine sequential_only.bind (only_perform fun _ _ h => nomatch h) fun answer => ?_
  rcases answer with error | _ | token
  · exact sequential_only.throw _
  · exact sequential_only.throw _
  · exact sequential_only.pure _

theorem refreshStoredToken_noPut (current : StoredToken) :
    Only NoPut (client.refreshStoredToken current).run := by
  unfold refreshStoredToken
  split
  · exact sequential_only.throw _
  split
  · exact sequential_only.throw _
  refine sequential_only.bind (sequential_only.bind (only_perform fun _ _ h => nomatch h)
    fun answer => ?_) fun refreshed => ?_
  · cases client.tokenOfAnswer answer with
    | ok token => exact sequential_only.pure _
    | error error => exact sequential_only.throw _
  · refine sequential_only.bind (only_perform fun _ _ h => nomatch h) fun saved => ?_
    cases saved with
    | ok done => exact sequential_only.pure _
    | error error => exact sequential_only.throw _

theorem sendFrom_noPut {α : Type} (accept : HttpResponse → Except HttpError α) (exhausted : Str)
    (makeRequest : Str → ApiRequest) (remaining : Nat) (refreshed : Bool) :
    Only NoPut (client.sendFrom accept exhausted makeRequest remaining refreshed).run := by
  induction remaining generalizing refreshed with
  | zero => exact sequential_only.throw _
  | succ remaining ih =>
    refine sequential_only.bind loadRequiredToken_noPut fun token => ?_
    refine sequential_only.bind (only_perform fun _ _ h => nomatch h) fun answer => ?_
    refine iteInduction (motive := fun p => Only NoPut (ExceptT.run p)) (fun _ => ?_) fun _ => ?_
    · exact sequential_only.bind (refreshStoredToken_noPut token) fun _ => ih true
    · cases client.report accept answer with
      | ok value => exact sequential_only.pure _
      | error error =>
        exact iteInduction (motive := fun p => Only NoPut (ExceptT.run p))
          (fun _ => ih refreshed) fun _ => sequential_only.throw _

theorem uploadLink_unaccepted {remotePath : Str} {overwrite : Bool}
    {result : Except HttpError LinkResponse}
    (h : HttpRun (client.uploadLink remotePath overwrite) s result s') :
    ∃ events, s'.trace = s.trace ++ events ∧ Unaccepted events := by
  obtain ⟨events,htrace,hall⟩ := HttpRun.only (sendFrom_noPut _ _ _ _ _) h
  exact ⟨events,htrace,unaccepted_of_noPut hall⟩

/-- The exchanges end with an accepted source, the first one. -/
def EndsAccepted (events : List Exchange) : Prop :=
  ∃ first x, events = first ++ [x] ∧ Unaccepted first ∧ x.putSucceeds = true

theorem EndsAccepted.prepend {before events : List Exchange} (hbefore : Unaccepted before)
    (h : EndsAccepted events) : EndsAccepted (before ++ events) := by
  obtain ⟨first,x,rfl,hfirst,hx⟩ := h
  exact ⟨before ++ first,x,by rw [List.append_assoc],hbefore.append hfirst,hx⟩

theorem uploadRequest_run {source : UploadSource} {result : Except HttpError Unit}
    (h : HttpRun (uploadRequest source) s result s') :
    ∃ events, s'.trace = s.trace ++ events ∧ Unaccepted events := by
  cases source with
  | bytes content =>
    obtain ⟨_,rfl⟩ := of_pure h
    exact ⟨[],by simp,by simp [Unaccepted]⟩
  | file path =>
    obtain ⟨answer,_,hrest⟩ := of_perform h
    have hs : s' = s.record (.openFile path) answer := by
      cases answer with
      | ok done => exact (of_pure hrest).2
      | error error => exact (of_throw hrest).2
    refine ⟨[⟨.openFile path,answer⟩],?_,by simp [Unaccepted,Exchange.putSucceeds]⟩
    rw [hs]
    rfl

/-- A source goes through if and only if one of its requests is accepted, and that is the last. -/
theorem sendUploadFrom_run {uploadUrl : Str} {source : UploadSource} {remaining : Nat}
    {result : Except HttpError Unit}
    (h : HttpRun (client.sendUploadFrom uploadUrl source remaining) s result s') :
    ∃ events, s'.trace = s.trace ++ events ∧
      ((result = .ok () ∧ EndsAccepted events) ∨
        ∃ error, result = .error error ∧ Unaccepted events) := by
  induction remaining generalizing s with
  | zero =>
    obtain ⟨hresult,rfl⟩ := of_throw h
    exact ⟨[],by simp,Or.inr ⟨_,hresult,by simp [Unaccepted]⟩⟩
  | succ remaining ih =>
    rcases of_bind h with ⟨_,s₁,hopen,hrest⟩ | ⟨error,hopen,hresult⟩
    · obtain ⟨opened,hopened,hquiet⟩ := uploadRequest_run hopen
      obtain ⟨answer,_,hanswered⟩ := of_perform hrest
      let put : Exchange := ⟨.put uploadUrl source,answer⟩
      have htrace : (s₁.record (.put uploadUrl source) answer).trace =
          s.trace ++ (opened ++ [put]) := by
        rw [HttpWorld.record,hopened,List.append_assoc]
      cases hreport : client.report (fun _ => .ok ()) answer with
      | ok done =>
        rw [hreport] at hanswered
        obtain ⟨hresult,rfl⟩ := of_pure hanswered
        refine ⟨_,htrace,Or.inl ⟨hresult,opened,put,rfl,hquiet,?_⟩⟩
        cases answer with
        | error error => cases hreport
        | ok response =>
          unfold report at hreport
          dsimp only at hreport
          split at hreport
          · assumption
          · cases hreport
      | error error =>
        have hput : Unaccepted [put] := by
          intro x hx
          obtain rfl := List.mem_singleton.mp hx
          cases answer with
          | error error => rfl
          | ok response =>
            unfold report at hreport
            dsimp only at hreport
            split at hreport
            · cases hreport
            · simpa [put,Exchange.putSucceeds] using ‹¬ response.isSuccess = true›
        rw [hreport] at hanswered
        dsimp only at hanswered
        split at hanswered
        · obtain ⟨events,hevents,hend⟩ := ih hanswered
          refine ⟨(opened ++ [put]) ++ events,?_,?_⟩
          · rw [hevents,htrace,List.append_assoc]
          · rcases hend with ⟨hresult,haccepted⟩ | ⟨error,hresult,hnone⟩
            · exact Or.inl ⟨hresult,haccepted.prepend (hquiet.append hput)⟩
            · exact Or.inr ⟨error,hresult,(hquiet.append hput).append hnone⟩
        · obtain ⟨hresult,rfl⟩ := of_throw hanswered
          exact ⟨_,htrace,Or.inr ⟨error,hresult,hquiet.append hput⟩⟩
    · obtain ⟨events,hevents,hnone⟩ := uploadRequest_run hopen
      exact ⟨events,hevents,Or.inr ⟨error,hresult,hnone⟩⟩

/-- A round: the answer to the request for a link, and how sending the source to it ended. -/
structure UploadRound where
  link : Except HttpError LinkResponse
  put : Option (Except HttpError Unit)

namespace UploadRound

/-- The error a round ends with. -/
def error (round : UploadRound) : Option HttpError :=
  match round.link,round.put with
  | .error error,_ => some error
  | .ok _,some (.error error) => some error
  | .ok _,_ => none

/-- The source was refused as a conflict that a fresh link may resolve. -/
def Conflicts (round : UploadRound) : Prop :=
  ∃ error, round.put = some (.error error) ∧ isRetryableUploadConflict error = true

end UploadRound

/-- The rounds of an upload from one world to another. Every round asks for a link of its own and
sends the source to it. -/
inductive RoundsOf (client : HttpYandexDiskClient) (remotePath : Str) (source : UploadSource)
    (overwrite : Bool) : HttpWorld → List UploadRound → HttpWorld → Prop
  | nil (s : HttpWorld) : RoundsOf client remotePath source overwrite s [] s
  | unlinked {s s₁ : HttpWorld} {error : HttpError} :
      HttpRun (client.uploadLink remotePath overwrite) s (.error error) s₁ →
      RoundsOf client remotePath source overwrite s [⟨.error error,none⟩] s₁
  | linked {s s₁ s₂ s₃ : HttpWorld} {link : LinkResponse} {put : Except HttpError Unit}
      {rounds : List UploadRound} :
      HttpRun (client.uploadLink remotePath overwrite) s (.ok link) s₁ →
      HttpRun (client.sendUploadSource link.href source) s₁ put s₂ →
      RoundsOf client remotePath source overwrite s₂ rounds s₃ →
      RoundsOf client remotePath source overwrite s (⟨.ok link,some put⟩ :: rounds) s₃

section Asks

theorem sendFrom_asks {α : Type} {accept : HttpResponse → Except HttpError α} {exhausted : Str}
    {makeRequest : Str → ApiRequest} {remaining : Nat} {refreshed : Bool}
    {result : Except HttpError α} (hpos : 0 < remaining)
    (h : HttpRun (client.sendFrom accept exhausted makeRequest remaining refreshed) s result s') :
    s.trace.length < s'.trace.length := by
  cases remaining with
  | zero => exact absurd hpos (Nat.lt_irrefl 0)
  | succ remaining =>
    rcases of_bind h with ⟨token,s₁,hload,hrest⟩ | ⟨error,hload,_⟩
    · obtain ⟨rfl,_⟩ := loadRequiredToken_run hload
      have hle := (exec_trace_grows hrest).length_le
      simp only [loaded,HttpWorld.record,List.length_append,List.length_singleton] at hle
      omega
    · obtain ⟨rfl,_⟩ := loadRequiredToken_run hload
      simp [loaded,HttpWorld.record]

end Asks

section Rounds

variable {remotePath : Str} {source : UploadSource} {overwrite : Bool}
  {result : Except HttpError Unit}

theorem RoundsOf.trace_grows {rounds : List UploadRound}
    (h : RoundsOf client remotePath source overwrite s rounds s') : s.trace <+: s'.trace := by
  induction h with
  | nil s => exact List.prefix_rfl
  | unlinked hlink => exact exec_trace_grows hlink
  | linked hlink hput _ ih =>
    exact (exec_trace_grows hlink).trans ((exec_trace_grows hput).trans ih)

/-- A round takes an exchange at least. -/
theorem RoundsOf.trace_lt {round : UploadRound} {rounds : List UploadRound}
    (h : RoundsOf client remotePath source overwrite s (round :: rounds) s') :
    s.trace.length < s'.trace.length := by
  have hpos := client.retryPolicy.attempts_pos
  cases h with
  | unlinked hlink => exact sendFrom_asks hpos hlink
  | linked hlink hput hrest =>
    have hle := ((exec_trace_grows hput).trans hrest.trace_grows).length_le
    exact Nat.lt_of_lt_of_le (sendFrom_asks hpos hlink) hle

/-- The exchanges of an upload divide into rounds in one way. -/
theorem RoundsOf.unique {rounds other : List UploadRound}
    (h : RoundsOf client remotePath source overwrite s rounds s')
    (h' : RoundsOf client remotePath source overwrite s other s') : rounds = other := by
  induction h generalizing other with
  | nil s =>
    cases other with
    | nil => rfl
    | cons round other => exact absurd h'.trace_lt (Nat.lt_irrefl _)
  | @unlinked s s₁ error hlink =>
    cases h' with
    | nil => exact absurd (sendFrom_asks client.retryPolicy.attempts_pos hlink) (Nat.lt_irrefl _)
    | unlinked hlink' =>
      obtain ⟨he,_⟩ := exec_unique hlink hlink' List.prefix_rfl List.prefix_rfl
      rw [he]
    | linked hlink' hput' hrest' =>
      obtain ⟨he,_⟩ := exec_unique hlink hlink' List.prefix_rfl
        ((exec_trace_grows hput').trans hrest'.trace_grows)
      cases he
  | @linked s s₁ s₂ s₃ link put rounds hlink hput hrest ih =>
    have hlinked := (exec_trace_grows hput).trans hrest.trace_grows
    cases h' with
    | nil => exact absurd (RoundsOf.linked hlink hput hrest).trace_lt (Nat.lt_irrefl _)
    | unlinked hlink' =>
      obtain ⟨he,_⟩ := exec_unique hlink hlink' hlinked List.prefix_rfl
      cases he
    | linked hlink' hput' hrest' =>
      obtain ⟨he,rfl⟩ := exec_unique hlink hlink' hlinked
        ((exec_trace_grows hput').trans hrest'.trace_grows)
      cases he
      obtain ⟨rfl,rfl⟩ := exec_unique hput hput' hrest.trace_grows hrest'.trace_grows
      rw [ih hrest']

/-- How an upload ends: conflicts, then a last round that decides. -/
def UploadEnds (remotePath : Str) (rounds : List UploadRound) (events : List Exchange)
    (result : Except HttpError Unit) : Prop :=
  ∃ before last, rounds = before ++ [last] ∧ (∀ round ∈ before, round.Conflicts) ∧
    ((result = .ok () ∧ last.error = none ∧ ¬ last.Conflicts ∧ EndsAccepted events) ∨
      (result = .error (.persistentUploaderConflict remotePath) ∧ last.Conflicts ∧
        Unaccepted events) ∨
      ∃ error, last.error = some error ∧ ¬ last.Conflicts ∧ result = .error error ∧
        Unaccepted events)

/-- One more conflict and what it sent go before. -/
theorem UploadEnds.after {rounds : List UploadRound} {earlier events : List Exchange}
    (h : UploadEnds remotePath rounds events result) {round : UploadRound} (hr : round.Conflicts)
    (hquiet : Unaccepted earlier) :
    UploadEnds remotePath (round :: rounds) (earlier ++ events) result := by
  obtain ⟨before,last,rfl,hbefore,hlast⟩ := h
  refine ⟨round :: before,last,rfl,List.forall_mem_cons.mpr ⟨hr,hbefore⟩,?_⟩
  rcases hlast with ⟨hok,hnone,hnot,hends⟩ | ⟨hresult,hconflicts,hevents⟩ |
    ⟨error,herror,hnot,hresult,hevents⟩
  · exact Or.inl ⟨hok,hnone,hnot,hends.prepend hquiet⟩
  · exact Or.inr (Or.inl ⟨hresult,hconflicts,hquiet.append hevents⟩)
  · exact Or.inr (Or.inr ⟨error,herror,hnot,hresult,hquiet.append hevents⟩)

theorem of_caught {β : Type} {p : Http Unit} {f : Except HttpError Unit → Http β}
    {result : Except HttpError β} (h : HttpRun (liftM p.run >>= f) s result s') :
    ∃ caught s₁, HttpRun p s caught s₁ ∧ HttpRun (f caught) s₁ result s' := by
  rcases of_bind h with ⟨caught,s₁,hp,hf⟩ | ⟨error,hp,_⟩
  · rcases exec_bind hp with ⟨first,s₂,hfirst,hlifted⟩ | ⟨hnone,_⟩
    · cases hlifted
      exact ⟨caught,s₁,hfirst,hf⟩
    · cases hnone
  · rcases exec_bind hp with ⟨first,s₂,_,hlifted⟩ | ⟨hnone,_⟩
    · cases hlifted
    · cases hnone

/-- What one round of the outer loop may do. -/
theorem uploadFrom_round {remaining : Nat} {conflicted : Bool}
    (h : HttpRun (client.uploadFrom remotePath source overwrite (remaining+1) conflicted) s result
      s') :
    (∃ error, HttpRun (client.uploadLink remotePath overwrite) s (.error error) s' ∧
      result = .error error) ∨
    ∃ link s₁ put s₂, HttpRun (client.uploadLink remotePath overwrite) s (.ok link) s₁ ∧
      HttpRun (client.sendUploadSource link.href source) s₁ put s₂ ∧
      ((put = .ok () ∧ result = .ok () ∧ s' = s₂) ∨ ∃ error, put = .error error ∧
        ((isRetryableUploadConflict error = true ∧
            result = .error (.persistentUploaderConflict remotePath) ∧ s' = s₂) ∨
          (isRetryableUploadConflict error = true ∧ 0 < remaining ∧
            HttpRun (client.uploadFrom remotePath source overwrite remaining true) s₂ result s') ∨
          (isRetryableUploadConflict error = false ∧ result = .error error ∧ s' = s₂))) := by
  have hattempts := client.retryPolicy.attempts_pos
  rcases of_bind h with ⟨link,s₁,hlink,hrest⟩ | ⟨error,hlink,hresult⟩
  · obtain ⟨put,s₂,hput,hended⟩ := of_caught hrest
    refine Or.inr ⟨link,s₁,put,s₂,hlink,hput,?_⟩
    cases put with
    | ok done =>
      obtain ⟨hresult,hs⟩ := of_pure hended
      exact Or.inl ⟨rfl,hresult,hs⟩
    | error error =>
      refine Or.inr ⟨error,rfl,?_⟩
      cases hconflict : isRetryableUploadConflict error with
      | true =>
        by_cases hlast : client.retryPolicy.attempts ≤ client.retryPolicy.attempts-remaining
        · simp only [hconflict,hlast,decide_true,Bool.and_self,if_true] at hended
          obtain ⟨hresult,hs⟩ := of_throw hended
          exact Or.inl ⟨rfl,hresult,hs⟩
        · have hretry : shouldRetryUploadConflict error
              (client.retryPolicy.attempts-remaining) client.retryPolicy.attempts = true := by
            simp only [shouldRetryUploadConflict,hconflict,Bool.and_true,decide_eq_true_eq]
            omega
          simp only [hconflict,hlast,hretry,decide_false,Bool.and_false,Bool.false_eq_true,
            if_false,if_true] at hended
          exact Or.inr (Or.inl ⟨rfl,by omega,hended⟩)
      | false =>
        have hretry : shouldRetryUploadConflict error
            (client.retryPolicy.attempts-remaining) client.retryPolicy.attempts = false := by
          simp only [shouldRetryUploadConflict,hconflict,Bool.and_false]
        simp only [hconflict,hretry,Bool.false_and,Bool.false_eq_true,if_false] at hended
        obtain ⟨hresult,hs⟩ := of_throw hended
        exact Or.inr (Or.inr ⟨rfl,hresult,hs⟩)
  · exact Or.inl ⟨error,hlink,hresult⟩

/-- Every upload divides into rounds; all but the last are conflicts. -/
theorem uploadFrom_rounds {remaining : Nat} {conflicted : Bool} (hpos : 0 < remaining)
    (h : HttpRun (client.uploadFrom remotePath source overwrite remaining conflicted) s result
      s') :
    ∃ rounds events, RoundsOf client remotePath source overwrite s rounds s' ∧
      s'.trace = s.trace ++ events ∧ rounds.length ≤ remaining ∧
      UploadEnds remotePath rounds events result := by
  induction remaining generalizing s conflicted with
  | zero => exact absurd hpos (Nat.lt_irrefl 0)
  | succ remaining ih =>
    rcases uploadFrom_round h with ⟨error,hlink,hresult⟩ |
      ⟨link,s₁,put,s₂,hlink,hput,hround⟩
    · obtain ⟨events,htrace,hquiet⟩ := uploadLink_unaccepted hlink
      refine ⟨_,events,.unlinked hlink,htrace,by simp,[],_,rfl,by simp,
        Or.inr (Or.inr ⟨error,rfl,?_,hresult,hquiet⟩)⟩
      rintro ⟨_,hnone,_⟩
      cases hnone
    obtain ⟨asked,hasked,hquiet⟩ := uploadLink_unaccepted hlink
    obtain ⟨sent,hsent,hends⟩ := sendUploadFrom_run hput
    have htrace : s₂.trace = s.trace ++ (asked ++ sent) := by
      rw [hsent,hasked,List.append_assoc]
    have hone := RoundsOf.linked hlink hput (.nil s₂)
    rcases hround with ⟨rfl,hresult,rfl⟩ | ⟨error,rfl,hround⟩
    · rcases hends with ⟨_,haccepted⟩ | ⟨_,herror,_⟩
      · refine ⟨_,_,hone,htrace,by simp,[],_,rfl,by simp,
          Or.inl ⟨hresult,rfl,?_,haccepted.prepend hquiet⟩⟩
        rintro ⟨_,hput,_⟩
        cases hput
      · cases herror
    rcases hends with ⟨hok,_⟩ | ⟨_,_,hnone⟩
    · cases hok
    rcases hround with ⟨hconflict,hresult,rfl⟩ | ⟨hconflict,hleft,hnext⟩ |
      ⟨hconflict,hresult,rfl⟩
    · exact ⟨_,_,hone,htrace,by simp,[],_,rfl,by simp,
        Or.inr (Or.inl ⟨hresult,⟨error,rfl,hconflict⟩,hquiet.append hnone⟩)⟩
    · obtain ⟨rounds,events,hrounds,hevents,hlength,hended⟩ := ih hleft hnext
      refine ⟨_,_,.linked hlink hput hrounds,?_,?_,
        hended.after ⟨error,rfl,hconflict⟩ (hquiet.append hnone)⟩
      · rw [hevents,htrace,List.append_assoc]
      · rw [List.length_cons]
        omega
    · refine ⟨_,_,hone,htrace,by simp,[],_,rfl,by simp,
        Or.inr (Or.inr ⟨error,rfl,?_,hresult,hquiet.append hnone⟩)⟩
      rintro ⟨other,hother,hretryable⟩
      cases hother
      rw [hconflict] at hretryable
      cases hretryable

/-- What is asked of an upload that made these rounds and these exchanges: how many rounds, what
success is, what a persistent conflict is, and that an error the engines stop on is the last. -/
structure UploadLaw (client : HttpYandexDiskClient) (rounds : List UploadRound)
    (events : List Exchange) (result : Except HttpError Unit) : Prop where
  bounded : rounds.length ≤ client.retryPolicy.attempts
  succeeds : result = .ok () ↔ ∃ x ∈ events, x.putSucceeds = true
  stops : ∀ before x after, events = before ++ x :: after → x.putSucceeds = true → after = []
  conflicts : (∃ error, result = .error error ∧ error.isPersistentUploaderConflict = true) ↔
    ∀ round ∈ rounds, round.Conflicts
  stopKinds : ∀ before round after, rounds = before ++ round :: after →
    ∀ error, round.error = some error → isStopError error.kind = true →
      after = [] ∧ result = .error error ∧
        (uploadFailure error.toYandexDiskError).shouldStop = true

/-- A conflict whose kind the engines stop on, or another error under the code by which they know
a persistent conflict. -/
def UploadRound.Misread (round : UploadRound) : Prop :=
  ∃ error, round.error = some error ∧ ((round.Conflicts ∧ isStopError error.kind = true) ∨
    (¬ round.Conflicts ∧ error.isPersistentUploaderConflict = true))

theorem UploadEnds.law_iff {rounds : List UploadRound} {events : List Exchange}
    (h : UploadEnds remotePath rounds events result)
    (hlength : rounds.length ≤ client.retryPolicy.attempts) :
    client.UploadLaw rounds events result ↔ ∀ round ∈ rounds, ¬ round.Misread := by
  obtain ⟨before,last,rfl,hbefore,hlast⟩ := h
  constructor
  · rintro hlaw round hround ⟨error,herror,hmisread⟩
    obtain ⟨prior,after,hsplit⟩ := List.append_of_mem hround
    rcases hmisread with ⟨hconflicts,hstop⟩ | ⟨hnot,hcode⟩
    · obtain ⟨rfl,hresult,_⟩ := hlaw.stopKinds prior round after hsplit error herror hstop
      obtain ⟨_,rfl,_⟩ | ⟨rest,hnil,_⟩ := snoc_eq_append_cons hsplit
      · rcases hlast with ⟨_,_,hnever,_⟩ | ⟨hpersistent,_,_⟩ | ⟨_,_,hnever,_⟩
        · exact hnever hconflicts
        · -- the error that is reported is not one to stop on
          obtain rfl := Except.error.inj (hpersistent.symm.trans hresult)
          cases hstop
        · exact hnever hconflicts
      · simp at hnil
    · obtain ⟨_,rfl,_⟩ | ⟨rest,_,hmem⟩ := snoc_eq_append_cons hsplit
      · rcases hlast with ⟨_,hnone,_⟩ | ⟨_,hconflicts,_⟩ | ⟨other,hother,_,hresult,_⟩
        · rw [hnone] at herror
          cases herror
        · exact hnot hconflicts
        · obtain rfl := Option.some.inj (hother.symm.trans herror)
          exact hnot (hlaw.conflicts.mp ⟨other,hresult,hcode⟩ round hround)
      · exact hnot (hbefore round (by simp [hmem]))
  · intro hread
    have hlastRead := hread last (by simp)
    have hnoSuccess : Unaccepted events → ¬ ∃ x ∈ events, x.putSucceeds = true := by
      rintro hnone ⟨x,hx,hsucceeds⟩
      rw [hnone x hx] at hsucceeds
      cases hsucceeds
    refine ⟨hlength,?_,?_,?_,?_⟩
    · rcases hlast with ⟨hok,_,_,first,x,rfl,_,hx⟩ | ⟨hresult,_,hnone⟩ | ⟨_,_,_,hresult,hnone⟩
      · exact iff_of_true hok ⟨x,by simp,hx⟩
      · exact iff_of_false (by simp [hresult]) (hnoSuccess hnone)
      · exact iff_of_false (by simp [hresult]) (hnoSuccess hnone)
    · intro prior x after hsplit hx
      rcases hlast with ⟨_,_,_,first,y,rfl,hfirst,_⟩ | ⟨_,_,hnone⟩ | ⟨_,_,_,_,hnone⟩
      · obtain ⟨_,_,hnil⟩ | ⟨rest,_,hmem⟩ := snoc_eq_append_cons hsplit
        · exact hnil
        · rw [hfirst x (by simp [hmem])] at hx
          cases hx
      · exact absurd ⟨x,by simp [hsplit],hx⟩ (hnoSuccess hnone)
      · exact absurd ⟨x,by simp [hsplit],hx⟩ (hnoSuccess hnone)
    · constructor
      · rintro ⟨error,hresult,hcode⟩
        rcases hlast with ⟨hok,_⟩ | ⟨_,hconflicts,_⟩ | ⟨other,hother,hnot,hother',_⟩
        · rw [hok] at hresult
          cases hresult
        · intro round hround
          rcases List.mem_append.mp hround with hround | hround
          · exact hbefore round hround
          · rwa [List.mem_singleton.mp hround]
        · obtain rfl := Except.error.inj (hother'.symm.trans hresult)
          exact absurd ⟨other,hother,Or.inr ⟨hnot,hcode⟩⟩ hlastRead
      · intro hall
        have hconflicts := hall last (by simp)
        rcases hlast with ⟨_,_,hnot,_⟩ | ⟨hresult,_,_⟩ | ⟨_,_,hnot,_⟩
        · exact absurd hconflicts hnot
        · exact ⟨_,hresult,rfl⟩
        · exact absurd hconflicts hnot
    · intro prior round after hsplit error herror hstop
      obtain ⟨_,rfl,hnil⟩ | ⟨rest,_,hmem⟩ := snoc_eq_append_cons hsplit
      · rcases hlast with ⟨_,hnone,_⟩ | ⟨_,hconflicts,_⟩ | ⟨other,hother,_,hresult,_⟩
        · rw [hnone] at herror
          cases herror
        · exact absurd ⟨error,herror,Or.inl ⟨hconflicts,hstop⟩⟩ hlastRead
        · obtain rfl := Option.some.inj (hother.symm.trans herror)
          exact ⟨hnil,hresult,hstop⟩
      · have hround : round ∈ before := by simp [hmem]
        exact absurd ⟨error,herror,Or.inl ⟨hbefore round hround,hstop⟩⟩
          (hread round (by simp [hround]))

end Rounds

/-- Every upload divides into rounds in one way. It follows the retry law if and only if none of them ends
in a conflict whose kind is one to stop on, or in another error under the code of a persistent
conflict. -/
theorem uploadInner_retries_iff (client : HttpYandexDiskClient) (remotePath : Str)
    (source : UploadSource) (overwrite : Bool) {s s' : HttpWorld}
    {result : Except HttpError Unit} (hs : s.trace = [])
    (h : HttpRun (client.uploadInner remotePath source overwrite) s result s') :
    ∃ rounds, (∀ other, RoundsOf client remotePath source overwrite s other s' ↔
        other = rounds) ∧
      (client.UploadLaw rounds s'.trace result ↔ ∀ round ∈ rounds, ¬ round.Misread) := by
  obtain ⟨rounds,events,hrounds,htrace,hlength,hends⟩ :=
    uploadFrom_rounds client.retryPolicy.attempts_pos h
  rw [hs,List.nil_append] at htrace
  refine ⟨rounds,fun other => ⟨fun hother => hother.unique hrounds,?_⟩,?_⟩
  · rintro rfl
    exact hrounds
  rw [htrace]
  exact hends.law_iff hlength

end HttpYandexDiskClient

section Conflicts

open HttpYandexDiskClient

private def conflictCodec : HttpCodec where
  apiError text :=
    if text = "\x7b\"error\":\"DiskQuotaExceeded\"\x7d".toList then
      .ok { error := some "DiskQuotaExceeded".toList, description := none, message := none }
    else if text = "\x7b\"error\":\"DiskUploadConflict\"\x7d".toList then
      .ok { error := some "DiskUploadConflict".toList, description := none, message := none }
    else .error { isDecode := true, text := "error decoding response body".toList }
  token _ := .error { isDecode := true, text := "error decoding response body".toList }
  link text :=
    if text = "\x7b\"href\":\"https://uploader/1\"\x7d".toList then
      .ok { href := "https://uploader/1".toList }
    else .error { isDecode := true, text := "error decoding response body".toList }
  statusText status := (toString status).toList

private def conflictClient (attempts : Nat) : HttpYandexDiskClient where
  accountAlias := "default".toList
  retryPolicy := .new attempts
  oauthFlow := none
  baseUrl := "https://cloud-api.yandex.net/v1/disk".toList
  codec := conflictCodec

/-- Links are given, and the first source sent is answered 409 with this body. -/
private def conflictScript (body : Str) : HttpScript where
  send _ := .ok { status := 200, body := .ok "\x7b\"href\":\"https://uploader/1\"\x7d".toList }
  token := .error { text := [] }
  put
    | 0 => .ok { status := 409, body := .ok body }
    | _ => .ok { status := 201, body := .ok [] }

private def conflictWorld : HttpWorld :=
  { token := some { accessToken := "t".toList, refreshToken := none }, trace := [] }

private def conflictUpload (attempts : Nat) : Http Unit :=
  (conflictClient attempts).uploadInner "disk:/a".toList (.bytes "x".toList) true

private def conflictError (code : Str) (kind : YandexDiskErrorKind) : HttpError :=
  { kind, message := code, apiCode := some code, status := some 409 }

private def conflictRound (code : Str) (kind : YandexDiskErrorKind) : UploadRound :=
  { link := .ok { href := "https://uploader/1".toList }
    put := some (.error (conflictError code kind)) }

private def plainBody : Str := "\x7b\"error\":\"DiskUploadConflict\"\x7d".toList

private def quotaBody : Str := "\x7b\"error\":\"DiskQuotaExceeded\"\x7d".toList

/-- The first round of these uploads, played. -/
private theorem conflictRound_runs (attempts : Nat) (body code : Str) (kind : YandexDiskErrorKind)
    {s₁ s₂ : HttpWorld} {rounds : List UploadRound} {s' : HttpWorld}
    (hlink : (conflictScript body).play ((conflictClient attempts).uploadLink "disk:/a".toList true)
      conflictWorld = (.ok { href := "https://uploader/1".toList },s₁))
    (hput : (conflictScript body).play ((conflictClient attempts).sendUploadSource
      "https://uploader/1".toList (.bytes "x".toList)) s₁ =
        (.error (conflictError code kind),s₂))
    (hrest : RoundsOf (conflictClient attempts) "disk:/a".toList (.bytes "x".toList) true s₂ rounds
      s') :
    RoundsOf (conflictClient attempts) "disk:/a".toList (.bytes "x".toList) true conflictWorld
      (conflictRound code kind :: rounds) s' := by
  have hlinked := (conflictScript body).play_runs
    ((conflictClient attempts).uploadLink "disk:/a".toList true) conflictWorld
  have hsent := (conflictScript body).play_runs ((conflictClient attempts).sendUploadSource
    "https://uploader/1".toList (.bytes "x".toList)) s₁
  rw [hlink] at hlinked
  rw [hput] at hsent
  exact .linked hlinked hsent hrest

/-- The world after the first round. -/
private def secondStart : HttpWorld :=
  ((conflictScript plainBody).play ((conflictClient 2).sendUploadSource
    "https://uploader/1".toList (.bytes "x".toList)) ((conflictScript plainBody).play
      ((conflictClient 2).uploadLink "disk:/a".toList true) conflictWorld).2).2

/-- The answer to the source of the second round, and the world after it. -/
private def secondRound : Except HttpError Unit × HttpWorld :=
  (conflictScript plainBody).play ((conflictClient 2).sendUploadSource
    "https://uploader/1".toList (.bytes "x".toList)) ((conflictScript plainBody).play
      ((conflictClient 2).uploadLink "disk:/a".toList true) secondStart).2

private theorem secondRound_ends :
    ((conflictScript plainBody).play (conflictUpload 2) conflictWorld).2 = secondRound.2 := rfl

/-- A plain conflict, then a fresh link to which the source goes through. -/
theorem secondLink_succeeds : ∃ rounds,
    RoundsOf (conflictClient 2) "disk:/a".toList (.bytes "x".toList) true conflictWorld rounds
      ((conflictScript plainBody).play (conflictUpload 2) conflictWorld).2 ∧
    (conflictClient 2).UploadLaw rounds
      ((conflictScript plainBody).play (conflictUpload 2) conflictWorld).2.trace
      ((conflictScript plainBody).play (conflictUpload 2) conflictWorld).1 := by
  obtain ⟨rounds,hunique,hlaw⟩ := (conflictClient 2).uploadInner_retries_iff "disk:/a".toList
    (.bytes "x".toList) true rfl
    ((conflictScript plainBody).play_runs (conflictUpload 2) conflictWorld)
  refine ⟨rounds,(hunique rounds).mpr rfl,hlaw.mpr ?_⟩
  have hlink := (conflictScript plainBody).play_runs
    ((conflictClient 2).uploadLink "disk:/a".toList true) secondStart
  have hput : HttpRun ((conflictClient 2).sendUploadSource "https://uploader/1".toList
      (.bytes "x".toList)) ((conflictScript plainBody).play
        ((conflictClient 2).uploadLink "disk:/a".toList true) secondStart).2 secondRound.1
          secondRound.2 := (conflictScript plainBody).play_runs _ _
  have hrounds := conflictRound_runs 2 plainBody "DiskUploadConflict".toList .permanent rfl rfl
    (.linked hlink hput (.nil _))
  rw [← secondRound_ends] at hrounds
  have hsent : secondRound.1 = .ok () := rfl
  rw [hsent] at hrounds
  obtain rfl := (hunique _).mp hrounds
  intro round hround
  rintro ⟨error,herror,hmisread⟩
  rcases List.mem_cons.mp hround with rfl | hround
  · cases herror
    rcases hmisread with ⟨_,hstop⟩ | ⟨_,hcode⟩
    · cases hstop
    · cases hcode
  · obtain rfl := List.mem_singleton.mp hround
    cases herror

/-- A 409 that speaks of the quota ends as a persistent conflict. -/
theorem quotaConflict_reported : ¬ ∀ (client : HttpYandexDiskClient) (remotePath : Str)
    (source : UploadSource) (overwrite : Bool) (s s' : HttpWorld) (result : Except HttpError Unit)
    (rounds : List UploadRound), s.trace = [] →
    HttpRun (client.uploadInner remotePath source overwrite) s result s' →
    RoundsOf client remotePath source overwrite s rounds s' →
      client.UploadLaw rounds s'.trace result := by
  intro h
  have hrun := (conflictScript quotaBody).play_runs (conflictUpload 1) conflictWorld
  have hrounds := conflictRound_runs 1 quotaBody "DiskQuotaExceeded".toList .quotaExceeded rfl rfl
    (.nil ((conflictScript quotaBody).play (conflictUpload 1) conflictWorld).2)
  have hlaw := h (conflictClient 1) _ _ _ conflictWorld _ _ _ rfl hrun hrounds
  obtain ⟨_,hresult,_⟩ := hlaw.stopKinds [] _ [] rfl _ rfl rfl
  cases hresult

end Conflicts

end YaDiskSync
