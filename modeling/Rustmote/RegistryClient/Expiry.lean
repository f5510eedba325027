import Rustmote.RegistryClient.Calls

/-!
# When cached answers expire

An entry is served while less than `ttl` has gone by since its stamp, by the difference of two
clock readings. When the second is the earlier one the difference is negative, and less than any
`ttl`: an entry with a stamp in the future is served whatever the `ttl` is.
`cached_expire_iff` is the exact condition, over all runs from any store.
-/

namespace Rustmote

namespace Registry

variable {toml : TomlFormat CacheStore} {start s s' : ClientState} {event : ClientEvent}
  {returned : Option Returned} {log : List Logged}

/-- No step changes the `ttl`. -/
theorem ttl_step (h : step toml s event = some (s', returned)) :
    s'.client.ttl = s.client.ttl := by
  cases event with
  | called call now =>
    rcases step_called h with ⟨reply, _, rfl, _⟩ | ⟨_, rfl, _⟩
    · rfl
    · rfl
  | answered i call answer files =>
    obtain ⟨now, result, client, file, _, hfinish, rfl, _⟩ := step_answered h
    rcases finish_cases hfinish with ⟨e, _, _, rfl, _⟩ | ⟨reply, _, rfl, _⟩
    · rfl
    · rfl
  | restarted read =>
    obtain ⟨_, _, _, _, httl, _⟩ := step_restarted h
    exact httl

theorem ClientRun.ttl (h : ClientRun toml start log s) : s.client.ttl = start.client.ttl := by
  induction h with
  | start => rfl
  | step _ hstep ih => exact (ttl_step hstep).trans ih

/-- A call that is served from the cache is served from an entry of the last `ttl`, and with no
`ttl` at all it is not. -/
def Expires (l : Logged) : Prop :=
  ∀ call now, l.event = .called call now →
    (∀ reply, l.returned = some ⟨call, .ok reply⟩ →
      ∃ cachedAt, l.before.client.cache.entry call = some (cachedAt, reply) ∧
        cachedAt.instant ≤ now.instant ∧
        now.signedDurationSince cachedAt < l.before.client.ttl) ∧
    (l.before.client.ttl = 0 → l.returned = none)

/-- The clock, when a call reads it, is not behind the stamp of the entry the call finds. -/
def ClockNotBehind (l : Logged) : Prop :=
  ∀ call now, l.event = .called call now →
    ∀ cachedAt reply, l.before.client.cache.entry call = some (cachedAt, reply) →
      cachedAt.instant ≤ now.instant

/-- A fresh entry is younger than the `ttl`. -/
theorem isFresh_iff {cachedAt now : DateTime} {ttl : Nat} {d : Int} (httl : fromStd ttl = some d) :
    isFresh cachedAt ttl now = true ↔ now.signedDurationSince cachedAt < ttl := by
  have hd : d = ttl := by
    unfold fromStd at httl
    split_ifs at httl
    exact (Option.some.inj httl).symm
  unfold isFresh
  rw [httl]
  simp [hd]

/-- **One step**: the entry is served in time exactly when the clock is not behind its stamp. -/
theorem expires_iff {l : Logged} {d : Int} (httl : fromStd l.before.client.ttl = some d)
    (hstep : step toml l.before l.event = some (l.after, l.returned)) :
    Expires l ↔ ClockNotBehind l := by
  constructor
  · intro h call now hevent cachedAt reply hentry
    by_contra hlt
    -- a stamp in the future makes the age negative, and the entry fresh
    have hage : now.signedDurationSince cachedAt < l.before.client.ttl := by
      unfold DateTime.signedDurationSince
      omega
    have hread : l.before.client.cacheRead now call = some reply := by
      rw [RegistryClient.cacheRead_eq, hentry]
      exact if_pos ((isFresh_iff httl).mpr hage)
    rw [hevent] at hstep
    rcases step_called hstep with ⟨reply', hread', _, hreturned⟩ | ⟨hnone, _, _⟩
    · rw [hread] at hread'
      obtain rfl := Option.some.inj hread'
      obtain ⟨cachedAt', hentry', hle, _⟩ := (h call now hevent).1 reply hreturned
      rw [hentry] at hentry'
      obtain ⟨rfl, -⟩ := Prod.mk.inj (Option.some.inj hentry')
      exact hlt hle
    · rw [hread] at hnone
      cases hnone
  · intro h call now hevent
    rw [hevent] at hstep
    rcases step_called hstep with ⟨reply, hread, _, hreturned⟩ | ⟨_, _, hreturned⟩
    · obtain ⟨cachedAt, hentry, hfresh⟩ := RegistryClient.cacheRead_eq_some hread
      have hle := h call now hevent cachedAt reply hentry
      have hage := (isFresh_iff httl).mp hfresh
      refine ⟨fun reply' hreturned' => ?_, fun hzero => ?_⟩
      · rw [hreturned] at hreturned'
        cases hreturned'
        exact ⟨cachedAt, hentry, hle, hage⟩
      · -- an age below zero is one of a stamp in the future
        unfold DateTime.signedDurationSince at hage
        omega
    · refine ⟨fun reply hreturned' => ?_, fun _ => hreturned⟩
      rw [hreturned] at hreturned'
      cases hreturned'

/-- **When cached answers expire**: exactly when no call reads a clock that is behind the stamp of
the entry it finds. -/
theorem cached_expire_iff {d : Int} (httl : fromStd start.client.ttl = some d)
    (hrun : ClientRun toml start log s) :
    (∀ l ∈ log, Expires l) ↔ ∀ l ∈ log, ClockNotBehind l := by
  have hone : ∀ l ∈ log, Expires l ↔ ClockNotBehind l := by
    intro l hl
    obtain ⟨pre, post, rfl⟩ := List.append_of_mem hl
    obtain ⟨hbefore, hstep⟩ := hrun.split
    exact expires_iff (by rw [hbefore.ttl]; exact httl) hstep
  constructor
  · exact fun h l hl => (hone l hl).mp (h l hl)
  · exact fun h l hl => (hone l hl).mpr (h l hl)

/-! ### A clock that is stepped back -/

/-- The tags of a repository, cached at 12:00:00 on 2026-04-18. -/
def sampleStore : CacheStore :=
  CacheStore.empty.putTagList "rustdesk/rustdesk-server".toList ["1.1.11".toList] ⟨1776513600, 0⟩

/-- A client that holds them, with no `ttl`. -/
def sampleClient : ClientState := ⟨⟨sampleStore, none, 0⟩, none, []⟩

/-- `list_tags` for that repository. -/
def sampleCall : RegistryCall := .listTags "rustdesk/rustdesk-server".toList

/-- A call five seconds later asks the transport. -/
def laterCall : Logged :=
  ⟨sampleClient, .called sampleCall ⟨1776513605, 0⟩, none,
    { sampleClient with pending := [(sampleCall, ⟨1776513605, 0⟩)] }⟩

/-- One five seconds earlier is served the tags. -/
def earlierCall : Logged :=
  ⟨sampleClient, .called sampleCall ⟨1776513595, 0⟩, some ⟨sampleCall, .ok ["1.1.11".toList]⟩,
    sampleClient⟩

theorem cached_expire_later : Expires laterCall := by
  have hrun : ClientRun ⟨fun _ => .error [], fun _ => .error []⟩ sampleClient [laterCall]
      laterCall.after := ClientRun.step .start rfl
  refine (cached_expire_iff (show fromStd 0 = some 0 by decide) hrun).mpr ?_ laterCall
    (List.mem_singleton_self _)
  intro l hl call now hevent cachedAt reply hentry
  obtain rfl := List.mem_singleton.mp hl
  cases hevent
  cases hentry
  decide

/-- With the clock stepped back by five seconds, the cache serves what no `ttl` allows. -/
theorem cached_expire_stepped_back :
    ClientRun ⟨fun _ => .error [], fun _ => .error []⟩ sampleClient [earlierCall] sampleClient ∧
      ¬ ∀ l ∈ [earlierCall], Expires l := by
  refine ⟨ClientRun.step .start rfl, fun h => ?_⟩
  have hnone := (h earlierCall (List.mem_singleton_self _) _ _ rfl).2 rfl
  cases hnone

end Registry

end Rustmote
