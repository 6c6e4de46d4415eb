import YaDiskSync.HttpClient

/-! The refresh of a token in the midst of a request. The service answers as it likes; the token
store gives back what was saved last. -/
namespace YaDiskSync

open Prog

/-- A step of the client with the answer it got. -/
abbrev Exchange := (e : HttpEffect) × e.Answer

/-- The token that is stored for the account, and what has happened. -/
structure HttpWorld where
  token : Option StoredToken
  trace : List Exchange

namespace HttpWorld

/-- What a step with an answer leaves in the token store. -/
def tokenAfter (s : HttpWorld) : (e : HttpEffect) → e.Answer → Option StoredToken
  | .saveToken _ token, .ok () => some token
  | _, _ => s.token

def record (s : HttpWorld) (e : HttpEffect) (answer : e.Answer) : HttpWorld :=
  { token := s.tokenAfter e answer, trace := s.trace ++ [⟨e,answer⟩] }

/-- Every answer is allowed, but the store gives what it holds. -/
def Allows (s : HttpWorld) : (e : HttpEffect) → e.Answer → Prop
  | .loadToken _, answer => answer = .ok s.token
  | _, _ => True

def Step (s : HttpWorld) (e : HttpEffect) (answer : e.Answer) (s' : HttpWorld) : Prop :=
  s.Allows e answer ∧ s' = s.record e answer

/-- Nothing but the client acts on its world. -/
theorem stays {s s' : HttpWorld}
    (h : Relation.ReflTransGen (fun _ _ : HttpWorld => False) s s') : s' = s := by
  induction h with
  | refl => rfl
  | tail _ hfalse => exact hfalse.elim

end HttpWorld

/-- A finished run of a program of the client. -/
def HttpRun {α : Type} (p : Http α) (s : HttpWorld) (result : Except HttpError α)
    (s' : HttpWorld) : Prop :=
  Exec HttpWorld.Step (fun _ _ => False) p.run s (some result) s'

namespace HttpRun

variable {α β : Type} {s s' : HttpWorld}

theorem of_pure {a : α} {result : Except HttpError α}
    (h : HttpRun (pure a : Http α) s result s') : result = .ok a ∧ s' = s := by
  cases h
  exact ⟨rfl,rfl⟩

theorem of_throw {error : HttpError} {result : Except HttpError α}
    (h : HttpRun (throw error : Http α) s result s') : result = .error error ∧ s' = s := by
  cases h
  exact ⟨rfl,rfl⟩

/-- A run of two parts is one of the first, then one of the second, or the first ends in an
error. -/
theorem of_bind {p : Http α} {f : α → Http β} {result : Except HttpError β}
    (h : HttpRun (p >>= f) s result s') :
    (∃ a s₁, HttpRun p s (.ok a) s₁ ∧ HttpRun (f a) s₁ result s') ∨
      ∃ error, HttpRun p s (.error error) s' ∧ result = .error error := by
  rcases exec_bind h with ⟨first,s₁,hp,hf⟩ | ⟨hnone,_⟩
  · cases first with
    | ok a => exact Or.inl ⟨a,s₁,hp,hf⟩
    | error error =>
      cases hf
      exact Or.inr ⟨error,hp,rfl⟩
  · cases hnone

theorem of_perform {e : HttpEffect} {f : e.Answer → Http β} {result : Except HttpError β}
    (h : HttpRun (HttpYandexDiskClient.perform e >>= f) s result s') :
    ∃ answer, s.Allows e answer ∧ HttpRun (f answer) (s.record e answer) result s' := by
  cases h with
  | ask henv hstep hrest =>
    obtain rfl := HttpWorld.stays henv
    obtain ⟨hallowed,rfl⟩ := hstep
    exact ⟨_,hallowed,hrest⟩

end HttpRun

namespace Exchange

def isSend : Exchange → Bool
  | ⟨.send _,_⟩ => true
  | _ => false

/-- A request for a new token. -/
def isRefresh : Exchange → Bool
  | ⟨.postForm ..,_⟩ => true
  | _ => false

/-- The token of a save that went well, with which a refresh succeeds. -/
def saved : Exchange → Option StoredToken
  | ⟨.saveToken _ token,.ok ()⟩ => some token
  | _ => none

end Exchange

/-- No token is saved in these exchanges. -/
def Unsaved (events : List Exchange) : Prop := ∀ x ∈ events, x.saved = none

theorem Unsaved.append {before after : List Exchange} (h : Unsaved before) (h' : Unsaved after) :
    Unsaved (before ++ after) := by
  intro x hx
  rcases List.mem_append.mp hx with hx | hx
  · exact h x hx
  · exact h' x hx

namespace HttpYandexDiskClient

open HttpRun

variable (client : HttpYandexDiskClient) {s s' : HttpWorld}

def loaded (s : HttpWorld) : HttpWorld := s.record (.loadToken client.accountAlias) (.ok s.token)

variable {client}

theorem loadRequiredToken_run {result : Except HttpError StoredToken}
    (h : HttpRun client.loadRequiredToken s result s') :
    s' = client.loaded s ∧
      ((s.token = none ∧ result = .error client.notAuthenticated) ∨
        ∃ token, s.token = some token ∧ result = .ok token) := by
  obtain ⟨answer,hallowed,hrest⟩ := of_perform h
  obtain rfl : answer = .ok s.token := hallowed
  cases htoken : s.token with
  | none =>
    rw [htoken] at hrest
    obtain ⟨hresult,hs⟩ := of_throw hrest
    refine ⟨?_,Or.inl ⟨rfl,hresult⟩⟩
    rw [hs,loaded,htoken]
  | some token =>
    rw [htoken] at hrest
    obtain ⟨hresult,hs⟩ := of_pure hrest
    refine ⟨?_,Or.inr ⟨token,rfl,hresult⟩⟩
    rw [hs,loaded,htoken]

theorem refreshAccessToken_run {flow : OAuthFlow} {refreshToken : Str}
    {result : Except HttpError StoredToken}
    (h : HttpRun (client.refreshAccessToken flow refreshToken) s result s') :
    ∃ answer, s' = s.record (.postForm flow.tokenUrl (refreshForm flow refreshToken)) answer := by
  obtain ⟨answer,_,hrest⟩ := of_perform h
  cases htoken : client.tokenOfAnswer answer with
  | ok token =>
    rw [htoken] at hrest
    exact ⟨answer,(of_pure hrest).2⟩
  | error error =>
    rw [htoken] at hrest
    exact ⟨answer,(of_throw hrest).2⟩

/-- A refresh asks for a token once and saves it, or it ends in an error without a save. -/
theorem refreshStoredToken_run {current : StoredToken} {result : Except HttpError Unit}
    (h : HttpRun (client.refreshStoredToken current) s result s') :
    ∃ events, s'.trace = s.trace ++ events ∧ (∀ x ∈ events, x.isSend = false) ∧
      events.countP Exchange.isRefresh ≤ 1 ∧
      ((∃ error, result = .error error ∧ Unsaved events) ∨
        ∃ first token, events = first ++ [⟨.saveToken client.accountAlias token,.ok ()⟩] ∧
          Unsaved first ∧ s'.token = some token ∧ result = .ok ()) := by
  have hnothing : ∀ {error}, result = .error error → s' = s → ∃ events : List Exchange,
      s'.trace = s.trace ++ events ∧ (∀ x ∈ events, x.isSend = false) ∧
      events.countP Exchange.isRefresh ≤ 1 ∧
      ((∃ error, result = .error error ∧ Unsaved events) ∨
        ∃ first token, events = first ++ [⟨.saveToken client.accountAlias token,.ok ()⟩] ∧
          Unsaved first ∧ s'.token = some token ∧ result = .ok ()) := by
    rintro error rfl rfl
    exact ⟨[],by simp,by simp,by simp,Or.inl ⟨error,rfl,by simp [Unsaved]⟩⟩
  unfold refreshStoredToken at h
  split at h
  · obtain ⟨hresult,hs⟩ := of_throw h
    exact hnothing hresult hs
  split at h
  · obtain ⟨hresult,hs⟩ := of_throw h
    exact hnothing hresult hs
  rcases of_bind h with ⟨token,s₁,hasked,hrest⟩ | ⟨error,hasked,hresult⟩
  · obtain ⟨answer,rfl⟩ := refreshAccessToken_run hasked
    obtain ⟨saved,_,hsaved⟩ := of_perform hrest
    cases saved with
    | error error =>
      obtain ⟨hresult,rfl⟩ := of_throw hsaved
      refine ⟨[⟨_,answer⟩,⟨.saveToken client.accountAlias token,.error error⟩],?_,?_,?_,
        Or.inl ⟨error,hresult,?_⟩⟩
      · simp [HttpWorld.record]
      · simp [Exchange.isSend]
      · simp [List.countP_cons,Exchange.isRefresh]
      · simp [Unsaved,Exchange.saved]
    | ok done =>
      obtain ⟨hresult,rfl⟩ := of_pure hsaved
      refine ⟨[⟨_,answer⟩,⟨.saveToken client.accountAlias token,.ok ()⟩],?_,?_,?_,
        Or.inr ⟨[⟨_,answer⟩],token,rfl,?_,rfl,hresult⟩⟩
      · simp [HttpWorld.record]
      · simp [Exchange.isSend]
      · simp [List.countP_cons,Exchange.isRefresh]
      · simp [Unsaved,Exchange.saved]
  · obtain ⟨answer,rfl⟩ := refreshAccessToken_run hasked
    refine ⟨[⟨_,answer⟩],?_,?_,?_,Or.inl ⟨error,hresult,?_⟩⟩
    · simp [HttpWorld.record]
    · simp [Exchange.isSend]
    · simp [Exchange.isRefresh]
    · simp [Unsaved,Exchange.saved]

section Loop

variable {α : Type} {accept : HttpResponse → Except HttpError α} {exhausted : Str}
  {makeRequest : Str → ApiRequest} {remaining : Nat} {refreshed : Bool}
  {result : Except HttpError α}

/-- The world after a request with the token. -/
def requested (client : HttpYandexDiskClient) (makeRequest : Str → ApiRequest) (s : HttpWorld)
    (token : StoredToken) (answer : Except TransportError HttpResponse) : HttpWorld :=
  (client.loaded s).record (.send (makeRequest (authorization token))) answer

/-- What one round of the loop may do. -/
theorem sendFrom_round
    (h : HttpRun (client.sendFrom accept exhausted makeRequest (remaining+1) refreshed) s result
      s') :
    (s.token = none ∧ s' = client.loaded s ∧ result = .error client.notAuthenticated) ∨
    ∃ token answer, s.token = some token ∧
      ((client.refreshes token refreshed answer = true ∧
          ((∃ s₁, HttpRun (client.refreshStoredToken token)
              (client.requested makeRequest s token answer) (.ok ()) s₁ ∧
            HttpRun (client.sendFrom accept exhausted makeRequest remaining true) s₁ result s') ∨
          ∃ error, HttpRun (client.refreshStoredToken token)
            (client.requested makeRequest s token answer) (.error error) s' ∧
              result = .error error)) ∨
        (client.refreshes token refreshed answer = false ∧
          ((result = client.report accept answer ∧
              s' = client.requested makeRequest s token answer) ∨
            (0 < remaining ∧ HttpRun (client.sendFrom accept exhausted makeRequest remaining
              refreshed) (client.requested makeRequest s token answer) result s')))) := by
  rcases of_bind h with ⟨token,s₁,hload,hrest⟩ | ⟨error,hload,hresult⟩
  · obtain ⟨rfl,⟨_,hnone⟩ | ⟨stored,hstored,htoken⟩⟩ := loadRequiredToken_run hload
    · cases hnone
    cases htoken
    obtain ⟨answer,_,hanswered⟩ := of_perform hrest
    refine Or.inr ⟨token,answer,hstored,?_⟩
    cases hrefreshes : client.refreshes token refreshed answer with
    | true =>
      rw [if_pos hrefreshes] at hanswered
      refine Or.inl ⟨rfl,?_⟩
      rcases of_bind hanswered with ⟨done,s₂,hrefresh,hnext⟩ | ⟨error,hrefresh,hresult⟩
      · exact Or.inl ⟨s₂,hrefresh,hnext⟩
      · exact Or.inr ⟨error,hrefresh,hresult⟩
    | false =>
      rw [if_neg (by simp [hrefreshes])] at hanswered
      refine Or.inr ⟨rfl,?_⟩
      cases hreport : client.report accept answer with
      | ok value =>
        rw [hreport] at hanswered
        exact Or.inl (of_pure hanswered)
      | error error =>
        rw [hreport] at hanswered
        dsimp only at hanswered
        split at hanswered
        · rename_i hretry
          have hleft : client.retryPolicy.attempts-remaining < client.retryPolicy.attempts :=
            of_decide_eq_true (Bool.and_eq_true_iff.mp hretry).2
          exact Or.inr ⟨by omega,hanswered⟩
        · exact Or.inl (of_throw hanswered)
  · obtain ⟨hs,⟨hnone,herror⟩ | ⟨stored,_,hok⟩⟩ := loadRequiredToken_run hload
    · cases herror
      exact Or.inl ⟨hnone,hs,hresult⟩
    · cases hok

/-- A round's own exchanges: the token is loaded and sent. -/
def asked (client : HttpYandexDiskClient) (makeRequest : Str → ApiRequest) (s : HttpWorld)
    (token : StoredToken) (answer : Except TransportError HttpResponse) : List Exchange := [
  ⟨.loadToken client.accountAlias,.ok s.token⟩,
  ⟨.send (makeRequest (authorization token)),answer⟩]

section Asked

variable (client) (makeRequest) (s) (token : StoredToken)
  (answer : Except TransportError HttpResponse)

theorem requested_trace : (client.requested makeRequest s token answer).trace =
    s.trace ++ client.asked makeRequest s token answer := by
  simp [requested,loaded,HttpWorld.record,asked]

@[simp] theorem countP_isSend_asked :
    (client.asked makeRequest s token answer).countP Exchange.isSend = 1 := by
  simp [asked,List.countP_cons,Exchange.isSend]

@[simp] theorem countP_isRefresh_asked :
    (client.asked makeRequest s token answer).countP Exchange.isRefresh = 0 := by
  simp [asked,Exchange.isRefresh]

theorem unsaved_asked : Unsaved (client.asked makeRequest s token answer) := by
  simp [Unsaved,asked,Exchange.saved]

theorem mem_asked : ⟨.send (makeRequest (authorization token)),answer⟩ ∈
    client.asked makeRequest s token answer := by
  simp [asked]

end Asked

/-- With the one refresh done the loop sends the stored token until it reports an answer. -/
theorem sendFrom_refreshed {token : StoredToken} (hs : s.token = some token)
    (h : HttpRun (client.sendFrom accept exhausted makeRequest remaining true) s result s') :
    ∃ events, s'.trace = s.trace ++ events ∧ events.countP Exchange.isSend ≤ remaining ∧
      events.countP Exchange.isRefresh = 0 ∧ Unsaved events ∧
      (remaining = 0 → events = []) ∧
      (0 < remaining → ∃ answer, ⟨.send (makeRequest (authorization token)),answer⟩ ∈ events ∧
        result = client.report accept answer) := by
  induction remaining generalizing s with
  | zero =>
    obtain ⟨_,rfl⟩ := of_throw h
    exact ⟨[],by simp,by simp,by simp,by simp [Unsaved],fun _ => rfl,fun h => absurd h (Nat.lt_irrefl 0)⟩
  | succ remaining ih =>
    rcases sendFrom_round h with ⟨hnone,_⟩ | ⟨token',answer,htoken,hround⟩
    · rw [hs] at hnone
      cases hnone
    obtain rfl : token = token' := Option.some.inj (hs.symm.trans htoken)
    have hfirst := client.requested_trace s makeRequest token answer
    have hmem := client.mem_asked s makeRequest token answer
    rcases hround with ⟨hagain,_⟩ | ⟨_,⟨hresult,rfl⟩ | ⟨hleft,hnext⟩⟩
    · -- a second refresh is ruled out by the flag
      cases answer <;> simp [refreshes] at hagain
    · exact ⟨_,hfirst,by simp,by simp,client.unsaved_asked s makeRequest token answer,
        (fun hzero => nomatch hzero),fun _ => ⟨answer,hmem,hresult⟩⟩
    · obtain ⟨events,htrace,hcount,hnone,hkept,_,hreported⟩ :=
        ih (s:=client.requested makeRequest s token answer) hs hnext
      refine ⟨_,(htrace.trans (by rw [hfirst,List.append_assoc])),?_,?_,?_,
        (fun hzero => nomatch hzero),fun _ => ?_⟩
      · rw [List.countP_append,countP_isSend_asked]
        omega
      · rw [List.countP_append,countP_isRefresh_asked,hnone]
      · exact (client.unsaved_asked s makeRequest token answer).append hkept
      · obtain ⟨later,hlater,hresult⟩ := hreported hleft
        exact ⟨later,List.mem_append_right _ hlater,hresult⟩

/-- The loop before a refresh: if one succeeds, the rounds that are left send its token. -/
theorem sendFrom_fresh
    (h : HttpRun (client.sendFrom accept exhausted makeRequest remaining false) s result s') :
    ∃ events, s'.trace = s.trace ++ events ∧ events.countP Exchange.isSend ≤ remaining ∧
      events.countP Exchange.isRefresh ≤ 1 ∧
      (Unsaved events ∨ ∃ before token after,
        events = before ++ ⟨.saveToken client.accountAlias token,.ok ()⟩ :: after ∧
        Unsaved before ∧ Unsaved after ∧
        ((before.countP Exchange.isSend = remaining ∧ after = []) ∨
          before.countP Exchange.isSend < remaining ∧
            ∃ answer, ⟨.send (makeRequest (authorization token)),answer⟩ ∈ after ∧
              result = client.report accept answer)) := by
  induction remaining generalizing s with
  | zero =>
    obtain ⟨_,rfl⟩ := of_throw h
    exact ⟨[],by simp,by simp,by simp,Or.inl (by simp [Unsaved])⟩
  | succ remaining ih =>
    rcases sendFrom_round h with ⟨_,rfl,_⟩ | ⟨token,answer,htoken,hround⟩
    · exact ⟨[⟨.loadToken client.accountAlias,.ok s.token⟩],rfl,by simp [Exchange.isSend],
        by simp [Exchange.isRefresh],Or.inl (by simp [Unsaved,Exchange.saved])⟩
    have hfirst := client.requested_trace s makeRequest token answer
    have hquiet := client.unsaved_asked s makeRequest token answer
    rcases hround with ⟨_,⟨s₁,hrefresh,hnext⟩ | ⟨error,hrefresh,hresult⟩⟩ |
      ⟨_,⟨_,rfl⟩ | ⟨hleft,hnext⟩⟩
    · obtain ⟨refreshed,htrace,hsends,hasks,⟨_,hok,_⟩ | ⟨first,new,rfl,hfirstKept,hnew,_⟩⟩ :=
        refreshStoredToken_run hrefresh
      · cases hok
      obtain ⟨events,hevents,hcount,hnone,hkept,hend,hreported⟩ := sendFrom_refreshed hnew hnext
      have hzero : first.countP Exchange.isSend = 0 :=
        List.countP_eq_zero.mpr fun x hx => by simp [hsends x (List.mem_append_left _ hx)]
      refine ⟨client.asked makeRequest s token answer ++
        (first ++ [⟨.saveToken client.accountAlias new,.ok ()⟩]) ++ events,?_,?_,?_,Or.inr
        ⟨client.asked makeRequest s token answer ++ first,new,events,?_,?_,hkept,?_⟩⟩
      · rw [hevents,htrace,hfirst]
        simp only [List.append_assoc]
      · have hsave : List.countP Exchange.isSend
            [⟨.saveToken client.accountAlias new,.ok ()⟩] = 0 := by simp [Exchange.isSend]
        rw [List.countP_append,List.countP_append,List.countP_append,countP_isSend_asked,hzero,
          hsave]
        omega
      · rw [List.countP_append,List.countP_append,countP_isRefresh_asked,hnone]
        omega
      · simp only [List.append_assoc,List.singleton_append]
      · exact hquiet.append hfirstKept
      · rw [List.countP_append,countP_isSend_asked,hzero]
        rcases Nat.eq_zero_or_pos remaining with hnil | hpos
        · exact Or.inl ⟨by omega,hend hnil⟩
        · exact Or.inr ⟨by omega,hreported hpos⟩
    · obtain ⟨refreshed,htrace,hsends,hasks,⟨_,_,hkept⟩ | ⟨_,_,_,_,_,hok⟩⟩ :=
        refreshStoredToken_run hrefresh
      · have hzero : refreshed.countP Exchange.isSend = 0 :=
          List.countP_eq_zero.mpr fun x hx => by simp [hsends x hx]
        refine ⟨client.asked makeRequest s token answer ++ refreshed,?_,?_,?_,Or.inl ?_⟩
        · rw [htrace,hfirst,List.append_assoc]
        · rw [List.countP_append,countP_isSend_asked,hzero]
          omega
        · rw [List.countP_append,countP_isRefresh_asked]
          omega
        · exact hquiet.append hkept
      · cases hok
    · exact ⟨_,hfirst,by simp,by simp,Or.inl hquiet⟩
    · obtain ⟨events,htrace,hcount,hasks,hsaved⟩ := ih hnext
      refine ⟨client.asked makeRequest s token answer ++ events,?_,?_,?_,?_⟩
      · rw [htrace,hfirst,List.append_assoc]
      · rw [List.countP_append,countP_isSend_asked]
        omega
      · rw [List.countP_append,countP_isRefresh_asked]
        omega
      · rcases hsaved with hkept | ⟨before,new,after,rfl,hbefore,hafter,hlast⟩
        · exact Or.inl (hquiet.append hkept)
        · refine Or.inr ⟨client.asked makeRequest s token answer ++ before,new,after,?_,
            hquiet.append hbefore,hafter,?_⟩
          · rw [List.append_assoc]
          · rw [List.countP_append,countP_isSend_asked]
            rcases hlast with ⟨hcounted,hnil⟩ | ⟨hfewer,hreported⟩
            · exact Or.inl ⟨by omega,hnil⟩
            · exact Or.inr ⟨by omega,hreported⟩

/-- What is asked of a request: how often it is sent and refreshed, and that after a refresh it
goes out with the new token and its answer is the result. -/
structure RefreshLaw (client : HttpYandexDiskClient) (accept : HttpResponse → Except HttpError α)
    (makeRequest : Str → ApiRequest) (events : List Exchange) (result : Except HttpError α) :
    Prop where
  sends : events.countP Exchange.isSend ≤ client.retryPolicy.attempts
  refreshes : events.countP Exchange.isRefresh ≤ 1
  resends : ∀ before x token after, events = before ++ x :: after → x.saved = some token →
    ∃ answer, ⟨.send (makeRequest (authorization token)),answer⟩ ∈ after ∧
      result = client.report accept answer

/-- A refresh succeeds when the request has been sent as often as the policy allows. -/
def RefreshesLast (client : HttpYandexDiskClient) (events : List Exchange) : Prop :=
  ∃ before x token after, events = before ++ x :: after ∧ x.saved = some token ∧
    before.countP Exchange.isSend = client.retryPolicy.attempts

/-- The one save of a run is where it is. -/
theorem split_unique {before after before' after' : List Exchange} {y x : Exchange}
    (hbefore : Unsaved before) (hafter : Unsaved after) {token : StoredToken}
    (hx : x.saved = some token) (h : before ++ y :: after = before' ++ x :: after') :
    before = before' ∧ y = x ∧ after = after' := by
  have hnot : ∀ {events : List Exchange}, Unsaved events → x ∉ events := by
    intro events hevents hmem
    rw [hevents x hmem] at hx
    cases hx
  exact (List.append_cons_inj_of_notMem (hnot hbefore) (hnot hafter)).mp h

theorem sendLoop_refreshes_iff (hs : s.trace = [])
    (h : HttpRun (client.sendLoop accept exhausted makeRequest) s result s') :
    client.RefreshLaw accept makeRequest s'.trace result ↔ ¬ client.RefreshesLast s'.trace := by
  obtain ⟨events,htrace,hsends,hrefreshes,hsaved⟩ := sendFrom_fresh h
  rw [hs,List.nil_append] at htrace
  rw [htrace]
  rcases hsaved with hnone | ⟨before,token,after,rfl,hbefore,hafter,hlast⟩
  · have hnever : ∀ before x token after, events = before ++ x :: after →
        x.saved ≠ some token := by
      rintro before x token after rfl hx
      rw [hnone x (by simp)] at hx
      cases hx
    refine iff_of_true ⟨hsends,hrefreshes,?_⟩ ?_
    · intro before x token after he hx
      exact absurd hx (hnever before x token after he)
    · rintro ⟨before,x,token,after,he,hx,_⟩
      exact hnever before x token after he hx
  · constructor
    · rintro hlaw ⟨before',x,token',after',he,hx,hcount⟩
      obtain ⟨answer,hmem,_⟩ := hlaw.resends before' x token' after' he hx
      obtain ⟨rfl,rfl,rfl⟩ := split_unique hbefore hafter hx he
      rcases hlast with ⟨_,rfl⟩ | ⟨hfewer,_⟩
      · cases hmem
      · omega
    · intro hnot
      refine ⟨hsends,hrefreshes,?_⟩
      intro before' x token' after' he hx
      obtain ⟨rfl,rfl,rfl⟩ := split_unique hbefore hafter hx he
      obtain rfl : token = token' := Option.some.inj hx
      rcases hlast with ⟨hcount,_⟩ | ⟨_,hreported⟩
      · exact absurd ⟨before,_,token,after,rfl,rfl,hcount⟩ hnot
      · exact hreported

end Loop

/-- `send_authorized` and `send_authorized_json` send at most as often as the policy allows,
refresh at most once, and after a refresh send the new token and report its answer, if and only if
no refresh succeeds after the last request that is allowed. -/
theorem sendAuthorized_refreshes_iff (client : HttpYandexDiskClient)
    (makeRequest : Str → ApiRequest) :
    (∀ {s s' : HttpWorld} {result : Except HttpError HttpResponse}, s.trace = [] →
      HttpRun (client.sendAuthorized makeRequest) s result s' →
      (client.RefreshLaw Except.ok makeRequest s'.trace result ↔
        ¬ client.RefreshesLast s'.trace)) ∧
    ∀ {α : Type} (decode : Str → Except TransportError α) (context : Str) {s s' : HttpWorld}
      {result : Except HttpError α}, s.trace = [] →
      HttpRun (client.sendAuthorizedJson decode context makeRequest) s result s' →
      (client.RefreshLaw (responseJsonWithContext decode context) makeRequest s'.trace result ↔
        ¬ client.RefreshesLast s'.trace) :=
  ⟨sendLoop_refreshes_iff,fun _ _ => sendLoop_refreshes_iff⟩

end HttpYandexDiskClient

/-- A service that answers the requests in a fixed order. -/
structure HttpScript where
  send : Nat → Except TransportError HttpResponse
  token : Except TransportError HttpResponse
  put : Nat → Except TransportError HttpResponse := fun _ => .error { text := [] }
  openFile : Except IoError Unit := .ok ()

def Exchange.isPut : Exchange → Bool
  | ⟨.put ..,_⟩ => true
  | _ => false

namespace HttpScript

variable (script : HttpScript)

def answer (s : HttpWorld) : (e : HttpEffect) → e.Answer
  | .loadToken _ => .ok s.token
  | .saveToken .. => .ok ()
  | .send _ => script.send (s.trace.countP Exchange.isSend)
  | .postForm .. => script.token
  | .openFile _ => script.openFile
  | .put .. => script.put (s.trace.countP Exchange.isPut)

def play {α : Type} (p : Http α) (s : HttpWorld) : Except HttpError α × HttpWorld :=
  runWith (fun s e => (script.answer s e,s.record e (script.answer s e))) p.run s

/-- For every sequence of answers there is a run, and it comes to its end. -/
theorem play_runs {α : Type} (p : Http α) (s : HttpWorld) :
    HttpRun p s (script.play p s).1 (script.play p s).2 := by
  refine exec_runWith (J := fun _ => True) ?_ p.run s trivial
  intro s e _
  refine ⟨⟨s,.refl,?_,rfl⟩,trivial⟩
  cases e <;> trivial

end HttpScript

section Refreshes

private def refreshCodec : HttpCodec where
  apiError text :=
    if text = "\x7b\"error\":\"UnauthorizedError\"\x7d".toList then
      .ok { error := some "UnauthorizedError".toList, description := none, message := none }
    else .error { isDecode := true, text := "error decoding response body".toList }
  token text :=
    if text = "\x7b\"access_token\":\"new-access\"\x7d".toList then
      .ok { accessToken := "new-access".toList, refreshToken := none }
    else .error { isDecode := true, text := "error decoding response body".toList }
  link _ := .error { isDecode := true, text := "error decoding response body".toList }
  statusText status := (toString status).toList

private def refreshClient (attempts : Nat) : HttpYandexDiskClient where
  accountAlias := "default".toList
  retryPolicy := .new attempts
  oauthFlow := some {
    clientId := "client-id".toList, tokenUrl := "https://oauth.yandex.com/token".toList }
  baseUrl := "https://cloud-api.yandex.net/v1/disk".toList
  codec := refreshCodec

private def refreshRequest (authorization : Str) : ApiRequest :=
  { url := "https://cloud-api.yandex.net/v1/disk".toList, authorization }

/-- A 401, then success; the token request is answered with a new token. -/
private def refreshScript : HttpScript where
  send
    | 0 => .ok { status := 401, body := .ok "\x7b\"error\":\"UnauthorizedError\"\x7d".toList }
    | _ => .ok { status := 200, body := .ok "\x7b\x7d".toList }
  token := .ok { status := 200, body := .ok "\x7b\"access_token\":\"new-access\"\x7d".toList }

private def refreshWorld : HttpWorld :=
  { token := some { accessToken := "old".toList, refreshToken := some "refresh".toList }
    trace := [] }

private def refreshPlay (attempts : Nat) : Except HttpError HttpResponse × HttpWorld :=
  refreshScript.play ((refreshClient attempts).sendAuthorized refreshRequest) refreshWorld

/-- With two attempts the new token is sent and answered. -/
theorem secondAttempt_refreshes : (refreshClient 2).RefreshLaw Except.ok refreshRequest
    (refreshPlay 2).2.trace (refreshPlay 2).1 := by
  refine (((refreshClient 2).sendAuthorized_refreshes_iff refreshRequest).1 rfl
    (refreshScript.play_runs _ refreshWorld)).mpr ?_
  rintro ⟨before,x,token,after,he,hx,hcount⟩
  have htrace : (refreshPlay 2).2.trace = (refreshPlay 2).2.trace.take 3 ++
      ⟨.saveToken "default".toList { accessToken := "new-access".toList, refreshToken := none },
        .ok ()⟩ :: (refreshPlay 2).2.trace.drop 4 := rfl
  have hbefore : Unsaved ((refreshPlay 2).2.trace.take 3) := by
    show ∀ x ∈ [_,_,_], Exchange.saved x = none
    simp [Exchange.saved]
  have hafter : Unsaved ((refreshPlay 2).2.trace.drop 4) := by
    show ∀ x ∈ [_,_], Exchange.saved x = none
    simp [Exchange.saved]
  obtain ⟨rfl,_⟩ := HttpYandexDiskClient.split_unique hbefore hafter hx (htrace.symm.trans he)
  -- one request went out before the save
  exact absurd hcount (by decide)

/-- With one attempt the new token is saved and never sent. -/
theorem sendAuthorized_dropsRefresh : ¬ ∀ (client : HttpYandexDiskClient)
    (makeRequest : Str → ApiRequest) (s s' : HttpWorld) (result : Except HttpError HttpResponse),
    s.trace = [] → HttpRun (client.sendAuthorized makeRequest) s result s' →
      client.RefreshLaw Except.ok makeRequest s'.trace result := by
  intro h
  have hlaw := h (refreshClient 1) refreshRequest refreshWorld (refreshPlay 1).2 (refreshPlay 1).1
    rfl (refreshScript.play_runs _ refreshWorld)
  obtain ⟨answer,hmem,_⟩ := hlaw.resends ((refreshPlay 1).2.trace.take 3) _
    { accessToken := "new-access".toList, refreshToken := none } [] rfl rfl
  cases hmem

end Refreshes

end YaDiskSync
