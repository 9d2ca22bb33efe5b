import SurfCam.Logic.Trace
import SurfCam.Upload.Client

/-!
# The attempts of an upload

What `uploadLocalFileWithPresign` sends, attempt by attempt, for every sequence of outcomes.
-/

namespace SurfCam

open Interaction

namespace ApiClient

/-- A request, or something that could not be opened. -/
inductive Move where
  | presign (answer : Option HttpReply)
  | put (url : Str) (headers : List Str) (reply : HttpReply)
  | unopened
  deriving DecidableEq

/-- What an event tells of an attempt. -/
def move : Event Host → Option Move
  | ⟨.presignPost _ _ _ _, answer⟩ => some (.presign answer)
  | ⟨.put url headers _ _, reply⟩ => some (.put url headers reply)
  | ⟨.curlEasyInit, false⟩ | ⟨.openBinary _, none⟩ => some .unopened
  | _ => none

/-- One attempt. -/
inductive Attempt where
  /-- there is no curl handle for the presign -/
  | noHandle
  /-- the presign has led to no URL -/
  | refused (answer : Option HttpReply)
  /-- the file, or the curl handle for the PUT, could not be opened -/
  | unopened (answer : HttpReply)
  | put (answer : HttpReply) (url : Str) (headers : List Str) (reply : HttpReply)

namespace Attempt

def moves : Attempt → List Move
  | noHandle => [.unopened]
  | refused answer => [.presign answer]
  | unopened answer => [.presign (some answer), .unopened]
  | put answer url headers reply => [.presign (some answer), .put url headers reply]

/-- The attempt has stored the file. -/
def success : Attempt → Bool
  | put _ _ _ reply => reply.success
  | _ => false

/-- The attempt has failed, and trying again may help. -/
def transient : Attempt → Bool
  | refused (some answer) => answer.transient
  | put _ _ _ reply => !reply.success && reply.transient
  | _ => false

end Attempt

/-- The answer has status 200 and carries a nonempty string `url`, and these headers with string
values. -/
def Presigned (parse : Str → Option Json) (answer : HttpReply) (url : Str)
    (headers : List (Str × Str)) : Prop :=
  answer.curl = .ok ∧ answer.status = 200 ∧ url ≠ [] ∧ ∃ j, parse answer.body = some j ∧
    j.member? "url".toList = some (.string url) ∧
      headers = ((j.member? "headers".toList).map Json.stringMembers).getD []

/-- There is a PUT only with a presigned URL: with that URL and those headers as C strings. -/
def Attempt.Sound (parse : Str → Option Json) : Attempt → Prop
  | .noHandle => True
  | .refused answer => ∀ a ∈ answer, ∀ url headers, ¬ Presigned parse a url headers
  | .unopened answer => ∃ url headers, Presigned parse answer url headers
  | .put answer url headers _ => ∃ presignUrl presignHeaders,
      Presigned parse answer presignUrl presignHeaders ∧ url = cStr presignUrl ∧
        headers = presignHeaders.map headerLine

/-- What the attempts of an upload with `left` attempts to go come to. -/
structure Transferred (parse : Str → Option Json) (left : Nat) (attempts : List Attempt)
    (result : Bool) : Prop where
  length_le : attempts.length ≤ left
  sound : ∀ a ∈ attempts, a.Sound parse
  success_iff : result = true ↔ ∃ a ∈ attempts, a.success
  success_last : ∀ a ∈ attempts, a.success → attempts.getLast? = some a
  retried : result = false → ∀ a ∈ attempts.dropLast, a.transient
  given_up : result = false → ∀ a ∈ attempts.getLast?, a.transient → attempts.length = left

section

variable {parse : Str → Option Json} {self : ApiClient} {objectKey contentType filePath : Str}
  {fsize : Nat} {events : List (Event Host)}

theorem presignResult_eq_some {answer : HttpReply} {url : Str} {headers : List (Str × Str)} :
    presignResult parse answer = some (url, headers) ↔ Presigned parse answer url headers := by
  unfold presignResult Presigned
  by_cases hok : answer.curl = .ok ∧ answer.status = 200
  · rw [if_pos hok]
    constructor
    · intro h
      split at h
      · cases h
      next j hj =>
        split at h
        next u hu =>
          by_cases hne : u = []
          · rw [if_pos hne] at h
            cases h
          · rw [if_neg hne] at h
            cases h
            exact ⟨hok.1, hok.2, hne, j, hj, hu, rfl⟩
        · cases h
    · rintro ⟨-, -, hne, j, hj, hu, rfl⟩
      simp only [hj, hu]
      rw [if_neg hne]
  · rw [if_neg hok]
    constructor
    · intro h
      cases h
    · intro h
      exact absurd ⟨h.1, h.2.1⟩ hok

/-- One attempt, and whether it settles the result. -/
theorem exec_transferAttempt {result : Option Bool}
    (h : Exec (self.transferAttempt parse objectKey contentType filePath fsize) events
      (some result)) :
    ∃ a : Attempt, events.filterMap move = a.moves ∧ a.Sound parse ∧
      result = if a.success then some true else if a.transient then none else some false := by
  unfold transferAttempt at h
  obtain ⟨handle, _, rfl, hpost⟩ := exec_call h
  cases handle with
  | false =>
    obtain ⟨rfl, hr⟩ := exec_ret (a := some false) hpost
    exact ⟨.noHandle, rfl, trivial, Option.some.inj hr⟩
  | true =>
  obtain ⟨answer, _, rfl, hpresigned⟩ := exec_call hpost
  cases answer with
  | none =>
    obtain ⟨rfl, hr⟩ := exec_ret (a := some false) hpresigned
    -- the presign request itself has failed
    refine ⟨.refused none, rfl, ?_, Option.some.inj hr⟩
    intro a ha
    cases ha
  | some answer =>
  cases hp : presignResult parse answer with
  | none =>
    simp only [hp] at hpresigned
    obtain ⟨rfl, hr⟩ := exec_ret hpresigned
    refine ⟨.refused (some answer), rfl, ?_, Option.some.inj hr⟩
    intro a ha url headers hurl
    rw [← Option.some.inj ha, ← presignResult_eq_some, hp] at hurl
    cases hurl
  | some p =>
    obtain ⟨url, headers⟩ := p
    have hurl := presignResult_eq_some.mp hp
    simp only [hp] at hpresigned
    obtain ⟨file, _, rfl, hopened⟩ := exec_call hpresigned
    cases file with
    | none =>
      obtain ⟨rfl, hr⟩ := exec_ret hopened
      exact ⟨.unopened answer, rfl, ⟨url, headers, hurl⟩, Option.some.inj hr⟩
    | some file =>
    obtain ⟨handle, _, rfl, hput⟩ := exec_call hopened
    cases handle with
    | false =>
      obtain ⟨rfl, hr⟩ := exec_ret (a := some false) hput
      exact ⟨.unopened answer, rfl, ⟨url, headers, hurl⟩, Option.some.inj hr⟩
    | true =>
      obtain ⟨reply, _, rfl, hdone⟩ := exec_call hput
      have hsound : (Attempt.put answer (cStr url) (headers.map headerLine) reply).Sound parse :=
        ⟨url, headers, hurl, rfl, rfl⟩
      by_cases hs : reply.success = true
      · simp only [hs] at hdone
        obtain ⟨rfl, hr⟩ := exec_ret (a := some true) hdone
        exact ⟨_, rfl, hsound, (Option.some.inj hr).trans (if_pos hs).symm⟩
      -- a failed PUT is repeated when its reply is transient
      · have htransient : (!reply.success && reply.transient) = reply.transient := by
          rw [Bool.not_eq_true] at hs
          rw [hs, Bool.not_false, Bool.true_and]
        simp only [hs] at hdone
        obtain ⟨rfl, hr⟩ := exec_ret hdone
        refine ⟨_, rfl, hsound, (Option.some.inj hr).trans ((if_neg hs).trans ?_).symm⟩
        show (if !reply.success && reply.transient then none else some false) = _
        rw [htransient]

/-! ## The loop -/

theorem Attempt.not_success_of_transient {a : Attempt} (h : a.transient = true) :
    a.success = false := by
  cases a with
  | noHandle => rfl
  | refused answer => rfl
  | unopened answer => rfl
  | put answer url headers reply =>
    unfold transient at h
    rw [Bool.and_eq_true, Bool.not_eq_true'] at h
    exact h.1

/-- No attempt is left, or none was made. -/
theorem Transferred.nil {left : Nat} : Transferred parse left [] false where
  length_le := Nat.zero_le _
  sound _ ha := nomatch ha
  success_iff := by simp
  success_last _ ha := nomatch ha
  retried _ _ ha := nomatch ha
  given_up _ _ ha := nomatch ha

/-- The attempt has settled the result. -/
theorem Transferred.single {left : Nat} {a : Attempt} (ha : a.Sound parse)
    (ht : a.transient = false) : Transferred parse (left + 1) [a] a.success where
  length_le := Nat.le_add_left _ _
  sound b hb := List.mem_singleton.mp hb ▸ ha
  success_iff := by simp
  success_last b hb _ := congrArg some (List.mem_singleton.mp hb).symm
  retried _ _ hb := nomatch hb
  given_up _ b hb hbt := by
    have hab : a = b := Option.some.inj hb
    rw [← hab, ht] at hbt
    cases hbt

/-- The attempt has failed, and the next ones are as they should be. -/
theorem Transferred.cons {left : Nat} {a : Attempt} {attempts : List Attempt} {result : Bool}
    (ha : a.Sound parse) (ht : a.transient = true) (hleft : attempts = [] → left = 0)
    (h : Transferred parse left attempts result) :
    Transferred parse (left + 1) (a :: attempts) result := by
  have hfailed : a.success = false := Attempt.not_success_of_transient ht
  refine ⟨Nat.succ_le_succ h.length_le, ?_, ?_, ?_, ?_, ?_⟩
  · exact List.forall_mem_cons.mpr ⟨ha, h.sound⟩
  · rw [h.success_iff]
    simp only [List.mem_cons, or_and_right, exists_or, exists_eq_left, hfailed, Bool.false_eq_true,
      false_or]
  · intro b hb hs
    rcases List.mem_cons.mp hb with rfl | hb
    · rw [hfailed] at hs
      cases hs
    · rw [List.getLast?_cons, h.success_last b hb hs]
      rfl
  · intro hr b hb
    cases attempts with
    | nil => cases hb
    | cons c rest =>
      rw [List.dropLast_cons_cons] at hb
      rcases List.mem_cons.mp hb with rfl | hb
      · exact ht
      · exact h.retried hr b hb
  · intro hr b hb hbt
    cases attempts with
    | nil =>
      rw [hleft rfl]
      rfl
    | cons c rest =>
      rw [List.getLast?_cons_cons] at hb
      exact congrArg _ (h.given_up hr b hb hbt)

theorem exec_transferAttempts {left attempt : Nat} {result : Bool}
    (h : Exec (transferAttempts parse self objectKey contentType filePath fsize attempt left)
      events (some result)) :
    ∃ attempts : List Attempt, events.filterMap move = attempts.flatMap Attempt.moves ∧
      (attempts = [] → left = 0) ∧ Transferred parse left attempts result := by
  induction left generalizing attempt events with
  | zero =>
    obtain ⟨rfl, hr⟩ := exec_ret h
    cases hr
    exact ⟨[], rfl, fun _ => rfl, .nil⟩
  | succ left ih =>
    rw [transferAttempts_succ] at h
    -- the sleep is no move
    have hslept : ∃ awake, events.filterMap move = awake.filterMap move ∧
        Exec (self.transferAttempt parse objectKey contentType filePath fsize >>= settle
          (self.transferAttempts parse objectKey contentType filePath fsize (attempt + 1) left))
          awake (some result) := by
      by_cases ha : attempt > 0
      · simp only [if_pos ha] at h
        obtain ⟨_, rest, rfl, hattempt⟩ := exec_call h
        exact ⟨rest, rfl, hattempt⟩
      · simp only [if_neg ha] at h
        exact ⟨events, rfl, h⟩
    obtain ⟨_, hmoves, hloop⟩ := hslept
    -- the first attempt, and the events of what it leaves
    obtain ⟨settled, first, rest, rfl, hfirst, hrest⟩ := exec_bind hloop
    obtain ⟨a, hfirstmoves, hsound, hsettled⟩ := exec_transferAttempt hfirst
    rw [List.filterMap_append, hfirstmoves] at hmoves
    cases ht : a.transient with
    | true =>
      rw [if_neg (Bool.eq_false_iff.mp (Attempt.not_success_of_transient ht)), if_pos ht]
        at hsettled
      rw [hsettled] at hrest
      obtain ⟨attempts, hrestmoves, hleft, htransferred⟩ := ih hrest
      rw [hrestmoves] at hmoves
      exact ⟨a :: attempts, hmoves, fun hnil => absurd hnil (List.cons_ne_nil _ _),
        .cons hsound ht hleft htransferred⟩
    | false =>
      have hresult : settled = some a.success := by
        rw [hsettled, ht]
        cases a.success <;> rfl
      rw [hresult] at hrest
      obtain ⟨rfl, hr⟩ := exec_ret hrest
      rw [Option.some.inj hr]
      -- settled: nothing comes after the attempt
      have hone : [a].flatMap Attempt.moves = a.moves := List.append_nil _
      rw [List.filterMap_nil, List.append_nil, ← hone] at hmoves
      exact ⟨[a], hmoves, fun hnil => absurd hnil (List.cons_ne_nil _ _), .single hsound ht⟩

/-- What an upload sends, and what it returns, for every sequence of replies. -/
theorem attempts_transferred {result : Bool}
    (h : Exec (self.uploadLocalFileWithPresign parse objectKey contentType filePath) events
      (some result)) :
    ∃ attempts : List Attempt, events.filterMap move = attempts.flatMap Attempt.moves ∧
      Transferred parse kPresignedTransferMaxAttempts attempts result := by
  unfold uploadLocalFileWithPresign at h
  obtain ⟨size, rest, rfl, hsized⟩ := exec_call h
  cases size with
  | none =>
    obtain ⟨rfl, hr⟩ := exec_ret hsized
    cases hr
    exact ⟨[], rfl, .nil⟩
  | some fsize =>
    by_cases hempty : fsize = 0
    · simp only [if_pos hempty] at hsized
      obtain ⟨rfl, hr⟩ := exec_ret hsized
      cases hr
      exact ⟨[], rfl, .nil⟩
    · simp only [if_neg hempty] at hsized
      obtain ⟨attempts, hmoves, -, htransferred⟩ := exec_transferAttempts hsized
      exact ⟨attempts, hmoves, htransferred⟩

end

/-! ## Runs -/

/-- A presign body, and what the JSON library makes of it. -/
def presignBody : Str :=
  "\x7b\"url\":\"https://b/k\",\"headers\":\x7b\"X-A\":\"1\",\"n\":2\x7d\x7d".toList

/-- Another one, with a NUL in its URL. -/
def presignNulBody : Str := "\x7b\"url\":\"https://b/k\\u0000v\"\x7d".toList

def parseBodies (body : Str) : Option Json :=
  if body = presignBody then
    some (.object [("headers".toList, .object [("X-A".toList, .string "1".toList),
      ("n".toList, .number 2)]), ("url".toList, .string "https://b/k".toList)])
  else if body = presignNulBody then
    some (.object [("url".toList, .string "https://b/k\x00v".toList)])
  else none

/-- The first presigns are answered 503, the others with the body, and every PUT with 200. -/
def presignsAfter (body : Str) : Nat → (c : HostCall) → Option (c.Reply × Nat)
  | refusals, .fileSize _ => some (some 3, refusals)
  | refusals, .curlEasyInit => some (true, refusals)
  | refusals, .sleepFor _ => some ((), refusals)
  | refusals, .openBinary _ => some (some "abc".toList, refusals)
  | 0, .presignPost _ _ _ _ => some (some ⟨.ok, 200, body⟩, 0)
  | refusals + 1, .presignPost _ _ _ _ => some (some ⟨.ok, 503, []⟩, refusals)
  | refusals, .put _ _ _ _ => some (⟨.ok, 200, []⟩, refusals)
  | _, _ => none

def client : ApiClient := ⟨"https://api".toList, "key".toList⟩

/-- The first presign fails, and the second attempt stores the file. -/
theorem attempts_transferred_retried :
    ∃ (events : List (Event Host)) (attempts : List Attempt),
      events.filterMap move = attempts.flatMap Attempt.moves ∧
      Transferred parseBodies kPresignedTransferMaxAttempts attempts true ∧
      events.filterMap move =
        [.presign (some ⟨.ok, 503, []⟩), .presign (some ⟨.ok, 200, presignBody⟩),
          .put "https://b/k".toList ["X-A: 1".toList] ⟨.ok, 200, []⟩] := by
  obtain ⟨events, o, h, htest⟩ := replay_reaches (presignsAfter presignBody)
    (client.uploadLocalFileWithPresign parseBodies "a".toList "b".toList "c".toList) 1
    (fun (events, o) => events.filterMap move =
      [.presign (some ⟨.ok, 503, []⟩), .presign (some ⟨.ok, 200, presignBody⟩),
        .put "https://b/k".toList ["X-A: 1".toList] ⟨.ok, 200, []⟩] ∧ o = some true)
    (by decide +kernel)
  obtain ⟨hmoves, rfl⟩ := of_decide_eq_true htest
  obtain ⟨attempts, hattempts, htransferred⟩ := attempts_transferred h
  exact ⟨events, attempts, hattempts, htransferred, hmoves⟩

/-- The PUT does not use the URL of the answer where that has a NUL: libcurl gets the part before
it. -/
theorem put_url_not_presigned :
    ∃ (events : List (Event Host)) (answer : HttpReply) (url presignUrl : Str),
      Exec (client.uploadLocalFileWithPresign parseBodies "a".toList "b".toList "c".toList) events
        (some true) ∧
      events.filterMap move = [.presign (some answer), .put url [] ⟨.ok, 200, []⟩] ∧
      Presigned parseBodies answer presignUrl [] ∧ url ≠ presignUrl := by
  obtain ⟨events, o, h, htest⟩ := replay_reaches (presignsAfter presignNulBody)
    (client.uploadLocalFileWithPresign parseBodies "a".toList "b".toList "c".toList) 0
    (fun (events, o) => events.filterMap move =
      [.presign (some ⟨.ok, 200, presignNulBody⟩), .put "https://b/k".toList [] ⟨.ok, 200, []⟩] ∧
        o = some true)
    (by decide +kernel)
  obtain ⟨hmoves, rfl⟩ := of_decide_eq_true htest
  have hpresigned : Presigned parseBodies ⟨.ok, 200, presignNulBody⟩ "https://b/k\x00v".toList [] :=
    presignResult_eq_some.mp (by decide +kernel)
  exact ⟨events, _, _, _, h, hmoves, hpresigned, by decide⟩

end ApiClient

end SurfCam
