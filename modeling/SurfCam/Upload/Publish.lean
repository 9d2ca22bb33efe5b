import SurfCam.Upload.Client
import SurfCam.Upload.Order

/-!
# What reaches the bucket

The uploader with the real client, beside an encoder that replaces `index.m3u8` at any moment.  The
check of the playlist and the PUT read the file separately, so the text that is sent is the text
that was checked only if the encoder has not replaced the file between the two.
-/

namespace SurfCam

open Interaction Contract HlsUploadPolicy

namespace Publish

/-- One content of `index.m3u8`, with the number of the replacement that put it there. -/
structure Version where
  text : Str
  number : Nat
  mtime : Int
  deriving DecidableEq

/-- `v` was there before `v'`, or they are the same. -/
def Version.Before (v v' : Version) : Prop :=
  v.number ≤ v'.number ∧ (v.number = v'.number → v = v')

theorem Version.Before.refl (v : Version) : v.Before v := ⟨Nat.le_refl _, fun _ => rfl⟩

theorem Version.Before.trans {a b c : Version} (h : a.Before b) (h' : b.Before c) : a.Before c := by
  refine ⟨Nat.le_trans h.1 h'.1, fun heq => ?_⟩
  have hab : a.number = b.number := by have := h.1; have := h'.1; omega
  rw [h.2 hab, h'.2 (hab ▸ heq)]

theorem Version.Before.antisymm {a b : Version} (h : a.Before b) (h' : b.Before a) : a = b :=
  h.2 (Nat.le_antisymm h.1 h'.1)

structure World where
  /-- the file `index.m3u8` -/
  playlist : Option Version
  /-- what the check of the current poll has read -/
  checked : Option Version
  /-- the playlist file behind the last open stream of a transfer -/
  opened : Option Version
  /-- the object key of the last presigned URL -/
  presigned : Str
  /-- the keys that were PUT with a 2xx answer after the last `resetSession` -/
  stored : List Str

/-- What a reply about the playlist file may be; other files may be anything. -/
def fileReply (w : World) (playlist : Str) : (c : HostCall) → c.Reply → Bool
  | .fileSize path, r =>
    path ≠ playlist ∨ r = none ∨ r = w.playlist.map fun v => v.text.length
  | .fileExists path, r => path ≠ playlist ∨ r = none ∨ r = some w.playlist.isSome
  | .lastWriteTime path, r => path ≠ playlist ∨ r = none ∨ r = w.playlist.map (·.mtime)
  | .readText path, r => path ≠ playlist ∨ r = none ∨ r = w.playlist.map (·.text)
  | .openBinary path, r => path ≠ playlist ∨ r = none ∨ r = w.playlist.map (·.text)
  | .nextCall, .pollAndUpload dirPath => pathAppend dirPath Config.HLS_PLAYLIST_NAME = playlist
  | _, _ => true

/-- What a call leaves behind. -/
def after (w : World) (playlist : Str) : (c : HostCall) → c.Reply → World
  | .readText path, some _ => { w with checked := if path = playlist then w.playlist else none }
  | .openBinary path, some _ => { w with opened := if path = playlist then w.playlist else none }
  | .presignPost _ _ objectKey _, some _ => { w with presigned := objectKey }
  | .put _ _ _ _, r => if r.success then { w with stored := w.presigned :: w.stored } else w
  | .nextCall, .resetSession => { w with stored := [] }
  | .nextCall, .pollAndUpload _ => { w with checked := none }
  | _, _ => w

/-- The encoder's atomic replacement of `index.m3u8`. -/
structure Replace where
  text : Str
  mtime : Int

def replaced (w : World) (e : Replace) : World :=
  let number := (w.playlist.map (·.number + 1)).getD 0
  { w with playlist := some ⟨e.text, number, e.mtime⟩ }

/-- One uploader that polls the directory of `playlist`, beside the encoder. -/
def machine (playlist : Str) : Machine Host Unit World Replace where
  act _ c r w := if fileReply w playlist c r then some (after w playlist c r) else none
  env e w := some (replaced w e)

abbrev PutLabel := Label Host Unit Replace

/-- A PUT of the playlist that is answered 2xx sends a text whose segments are all stored. -/
def SafePut (spotId : Str) (w : World) : PutLabel → Prop
  | .act _ (.put _ _ file infileSize) r =>
    r.success → w.presigned = s3KeyForFile spotId Config.HLS_PLAYLIST_NAME →
      ∀ name ∈ demands (file.take infileSize), s3KeyForFile spotId name ∈ w.stored
  | _ => True

/-- A PUT of the playlist that is answered 2xx has opened the version that the check read. -/
def PutOpensChecked (spotId : Str) (w : World) : PutLabel → Prop
  | .act _ (.put _ _ _ _) r =>
    r.success → w.presigned = s3KeyForFile spotId Config.HLS_PLAYLIST_NAME → w.opened = w.checked
  | _ => True

/-- What a poll can count on while the encoder works. -/
structure Rely (w w' : World) : Prop where
  checked : w'.checked = w.checked
  opened : w'.opened = w.opened
  presigned : w'.presigned = w.presigned
  stored : w'.stored = w.stored
  playlist : ∀ v, w.playlist = some v → ∃ v', w'.playlist = some v' ∧ v.Before v'

theorem Rely.refl (w : World) : Rely w w :=
  ⟨rfl, rfl, rfl, rfl, fun v hv => ⟨v, hv, .refl v⟩⟩

theorem Rely.trans {w w' w'' : World} (h : Rely w w') (h' : Rely w' w'') : Rely w w'' where
  checked := h'.checked.trans h.checked
  opened := h'.opened.trans h.opened
  presigned := h'.presigned.trans h.presigned
  stored := h'.stored.trans h.stored
  playlist v hv := by
    rcases h.playlist v hv with ⟨v', hv', hb⟩
    rcases h'.playlist v' hv' with ⟨v'', hv'', hb'⟩
    exact ⟨v'', hv'', hb.trans hb'⟩

theorem rely_replaced (w : World) (e : Replace) : Rely w (replaced w e) := by
  refine ⟨rfl, rfl, rfl, rfl, fun v hv => ⟨_, rfl, ?_⟩⟩
  rw [hv]
  exact ⟨Nat.le_succ _, fun h => absurd h (Nat.ne_of_lt (Nat.lt_succ_self _))⟩

/-- What the upload may require of a PUT: the condition makes it safe. -/
def putPre (spotId : Str) (w : World) : HostCall → Prop
  | .put _ _ file infileSize =>
    w.presigned = s3KeyForFile spotId Config.HLS_PLAYLIST_NAME → w.opened = w.checked →
      ∀ name ∈ demands (file.take infileSize), s3KeyForFile spotId name ∈ w.stored
  | _ => True

def contract (playlist spotId : Str) : Contract (machine playlist) (PutOpensChecked spotId) where
  inv _ := True
  pre _ c w := putPre spotId w c
  rely _ := Rely
  rely_refl _ := Rely.refl
  rely_trans := Rely.trans
  inv_act _ _ _ _ := trivial
  inv_env _ _ _ := trivial
  rely_act h := (h rfl).elim
  rely_env _ _ hs := by
    rcases Option.some.inj hs with rfl
    exact rely_replaced _ _

section

variable {playlist spotId : Str}

theorem act_eq {c : HostCall} {r : c.Reply} {w w' : World}
    (h : (machine playlist).act () c r w = some w') :
    fileReply w playlist c r = true ∧ w' = after w playlist c r :=
  guarded_eq_some.mp h

/-- `v` is the current playlist or was there before it. -/
def Upto (v : Version) (w : World) : Prop := ∃ c, w.playlist = some c ∧ v.Before c

theorem Upto.rely {v : Version} {w w' : World} (h : Upto v w) (hr : Rely w w') : Upto v w' := by
  rcases h with ⟨c, hc, hb⟩
  rcases hr.playlist c hc with ⟨c', hc', hb'⟩
  exact ⟨c', hc', hb.trans hb'⟩

/-- The stored keys cover the names in the cache. -/
abbrev Stored (spotId : Str) (names : Finset Str) (w : World) : Prop :=
  AllGood (fun n w => s3KeyForFile spotId n ∈ w.stored) names w

/-- What is known when an upload of `key` begins: a playlist has been checked. -/
structure Ready (spotId : Str) (names : Finset Str) (key : Str) (w : World) : Prop where
  stored : Stored spotId names w
  check : key = s3KeyForFile spotId Config.HLS_PLAYLIST_NAME →
    ∃ v, w.checked = some v ∧ (∀ n ∈ demands v.text, n ∈ names) ∧ Upto v w

/-- What is known of an upload of `key` once the size of its file is read. -/
structure Sized (playlist spotId : Str) (names : Finset Str) (key path : Str) (fsize : Nat)
    (w : World) : Prop where
  stored : Stored spotId names w
  chain : key = s3KeyForFile spotId Config.HLS_PLAYLIST_NAME →
    ∃ v, w.checked = some v ∧ (∀ n ∈ demands v.text, n ∈ names) ∧
      (path = playlist → ∃ u, fsize = u.text.length ∧ v.Before u ∧ Upto u w)

/-- What is known of an upload once its file is open. -/
structure Open (spotId : Str) (names : Finset Str) (key file : Str) (fsize : Nat)
    (w : World) : Prop where
  stored : Stored spotId names w
  presigned : w.presigned = key
  text : key = s3KeyForFile spotId Config.HLS_PLAYLIST_NAME →
    ∃ v, w.checked = some v ∧ (∀ n ∈ demands v.text, n ∈ names) ∧
      (w.opened = some v → file.take fsize = v.text)

variable {names : Finset Str} {key path file : Str} {fsize : Nat} {w w' : World}

theorem Stored.rely (h : Stored spotId names w) (hr : Rely w w') : Stored spotId names w' :=
  fun n hn => by simpa only [hr.stored] using h n hn

theorem Stored.mono (h : Stored spotId names w) (hs : ∀ k ∈ w.stored, k ∈ w'.stored) :
    Stored spotId names w' :=
  fun n hn => hs _ (h n hn)

theorem Ready.rely (h : Ready spotId names key w) (hr : Rely w w') : Ready spotId names key w' where
  stored := h.stored.rely hr
  check hk := by
    rcases h.check hk with ⟨v, hv, hcover, hup⟩
    exact ⟨v, hr.checked ▸ hv, hcover, hup.rely hr⟩

theorem Sized.rely (h : Sized playlist spotId names key path fsize w) (hr : Rely w w') :
    Sized playlist spotId names key path fsize w' where
  stored := h.stored.rely hr
  chain hk := by
    rcases h.chain hk with ⟨v, hv, hcover, hu⟩
    refine ⟨v, hr.checked ▸ hv, hcover, fun hp => ?_⟩
    rcases hu hp with ⟨u, hlen, hb, hup⟩
    exact ⟨u, hlen, hb, hup.rely hr⟩

/-- Storing more keys, presigning and opening keep what is known of the size. -/
theorem Sized.mono (h : Sized playlist spotId names key path fsize w)
    (hc : w'.checked = w.checked) (hp : w'.playlist = w.playlist)
    (hs : ∀ k ∈ w.stored, k ∈ w'.stored) : Sized playlist spotId names key path fsize w' where
  stored := h.stored.mono hs
  chain hk := by
    rcases h.chain hk with ⟨v, hv, hcover, hu⟩
    refine ⟨v, hc ▸ hv, hcover, fun hpath => ?_⟩
    rcases hu hpath with ⟨u, hlen, hb, c, hcur, huc⟩
    exact ⟨u, hlen, hb, c, hp ▸ hcur, huc⟩

theorem Open.rely (h : Open spotId names key file fsize w) (hr : Rely w w') :
    Open spotId names key file fsize w' where
  stored := h.stored.rely hr
  presigned := hr.presigned ▸ h.presigned
  text := by rw [hr.checked, hr.opened]; exact h.text

/-- Opening the file settles which text a PUT would send. -/
theorem Sized.open (h : Sized playlist spotId names key path fsize w) (hp : w.presigned = key)
    (hr : fileReply w playlist (.openBinary path) (some file) = true) :
    Open spotId names key file fsize (after w playlist (.openBinary path) (some file)) where
  stored := h.stored
  presigned := hp
  text hk := by
    rcases h.chain hk with ⟨v, hv, hcover, hu⟩
    refine ⟨v, hv, hcover, fun ho => ?_⟩
    simp only [after] at ho
    split at ho
    · rename_i hpath
      rcases hu hpath with ⟨u, hlen, hvu, c, hc, huc⟩
      -- the version that the check read is still there, so the size was read of it as well
      obtain rfl : v = c := Option.some.inj (ho.symm.trans hc)
      obtain rfl : u = v := huc.antisymm hvu
      have hfile : file = u.text := by simpa [fileReply, hpath, hc] using hr
      rw [hfile, hlen, List.take_length]
    · cases ho

/-- The condition makes the PUT of an open file safe. -/
theorem Open.put (h : Open spotId names key file fsize w) (url : Str)
    (headers : List Str) : putPre spotId w (.put url headers file fsize) := by
  intro hk ho
  rcases h.text (h.presigned ▸ hk) with ⟨v, hv, hcover, htext⟩
  rw [htext (ho.trans hv)]
  exact fun n hn => h.stored n (hcover n hn)

/-! ## The contract of the client -/

variable {parse : Str → Option Json} {self : ApiClient} {contentType : Str}

/-- An attempt keeps what is known, and succeeds only by storing the key. -/
def AttemptPost (playlist spotId : Str) (names : Finset Str) (key path : Str) (fsize : Nat)
    (result : Option Bool) (w : World) : Prop :=
  Sized playlist spotId names key path fsize w ∧ (result = some true → key ∈ w.stored)

theorem wp_attempt_failed {result : Option Bool} {X : World → Prop}
    (h : Sized playlist spotId names key path fsize w) (hr : result ≠ some true) :
    (contract playlist spotId).wp () (.ret result : Prog Host (Option Bool))
      (AttemptPost playlist spotId names key path fsize) X w :=
  fun _ hrely _ => ⟨h.rely hrely, fun ht => absurd ht hr⟩

theorem wp_transferAttempt (h : Sized playlist spotId names key path fsize w) :
    (contract playlist spotId).wp () (self.transferAttempt parse key contentType path fsize)
      (AttemptPost playlist spotId names key path fsize) (fun _ => False) w := by
  rw [ApiClient.transferAttempt]
  refine wp_call_of (fun _ _ hr _ h => h.rely hr) h fun w _ h => ⟨trivial, fun r w' _ hs => ?_⟩
  rcases act_eq hs with ⟨-, rfl⟩
  match r with
  | false => exact wp_attempt_failed h nofun
  | true =>
  refine wp_call_of (fun _ _ hr _ h => h.rely hr) h fun w _ h => ⟨trivial, fun r w' _ hs => ?_⟩
  rcases act_eq hs with ⟨-, rfl⟩
  match r with
  | none => exact wp_attempt_failed h nofun
  | some presignReply =>
  have h : Sized playlist spotId names key path fsize { w with presigned := key } :=
    h.mono rfl rfl fun _ hk => hk
  have giveUp : ∀ {b : Bool}, (if b then none else some false : Option Bool) ≠ some true := by
    decide
  dsimp only
  split
  · exact wp_attempt_failed h giveUp
  rename_i presignUrl presignResponseHeaders _
  let url := cStr presignUrl
  let headers := presignResponseHeaders.map headerLine
  refine wp_call_of (A := fun w => Sized playlist spotId names key path fsize w ∧ w.presigned = key)
    (fun _ _ hr _ h => ⟨h.1.rely hr, hr.presigned ▸ h.2⟩) ⟨h, rfl⟩
    fun w _ h => ⟨trivial, fun r w' _ hs => ?_⟩
  rcases act_eq hs with ⟨hreply, rfl⟩
  match r with
  -- the file cannot be opened
  | none => exact wp_attempt_failed h.1 nofun
  | some file =>
  -- from here on both facts are carried along: a failure needs the first, the PUT the second
  have hopen := h.1.open h.2 hreply
  have h : Sized playlist spotId names key path fsize
      (after w playlist (.openBinary path) (some file)) := h.1.mono rfl rfl fun _ hk => hk
  refine wp_call_of (A := fun w => Sized playlist spotId names key path fsize w ∧
      Open spotId names key file fsize w)
    (fun _ _ hr _ h => ⟨h.1.rely hr, h.2.rely hr⟩) ⟨h, hopen⟩
    fun w _ h => ⟨trivial, fun r w' _ hs => ?_⟩
  rcases act_eq hs with ⟨-, rfl⟩
  match r with
  | false => exact wp_attempt_failed h.1 nofun
  | true =>
  refine wp_call_of (A := fun w => Sized playlist spotId names key path fsize w ∧
      Open spotId names key file fsize w)
    (fun _ _ hr _ h => ⟨h.1.rely hr, h.2.rely hr⟩) h
    fun w _ h => ⟨h.2.put url headers, fun r w' _ hs => ?_⟩
  rcases act_eq hs with ⟨-, rfl⟩
  cases hsucc : r.success with
  | false =>
    -- an answer that is not 2xx stores nothing
    have hafter : after w playlist (.put url headers file fsize) r = w :=
      if_neg (by rw [hsucc]; exact Bool.false_ne_true)
    rw [hafter, if_neg Bool.false_ne_true]
    exact wp_attempt_failed h.1 giveUp
  | true =>
    have hafter : after w playlist (.put url headers file fsize) r =
        { w with stored := w.presigned :: w.stored } := if_pos hsucc
    rw [hafter, if_pos rfl, h.2.presigned]
    have hstored : Sized playlist spotId names key path fsize
        { w with presigned := key, stored := key :: w.stored } :=
      h.1.mono rfl rfl fun _ hk => List.mem_cons_of_mem _ hk
    intro w' hr _
    refine ⟨hstored.rely hr, fun _ => ?_⟩
    rw [hr.stored]
    exact List.mem_cons_self

theorem wp_transferAttempts (attempt left : Nat)
    (h : Sized playlist spotId names key path fsize w) :
    (contract playlist spotId).wp ()
      (self.transferAttempts parse key contentType path fsize attempt left)
      (fun b w => Stored spotId names w ∧ (b = true → key ∈ w.stored)) (fun _ => False) w := by
  induction left generalizing attempt w with
  | zero => exact fun _ hr _ => ⟨h.stored.rely hr, fun hb => by cases hb⟩
  | succ left ih =>
    rw [ApiClient.transferAttempts_succ]
    have hattempt : ∀ {w}, Sized playlist spotId names key path fsize w →
        (contract playlist spotId).wp ()
          (self.transferAttempt parse key contentType path fsize >>= ApiClient.settle
            (self.transferAttempts parse key contentType path fsize (attempt + 1) left))
          (fun b w => Stored spotId names w ∧ (b = true → key ∈ w.stored)) (fun _ => False) w := by
      intro w h
      refine wp_bind_of (wp_transferAttempt h) fun result w _ hres => ?_
      cases result with
      | some result =>
        intro w' hr _
        rw [hr.stored]
        exact ⟨hres.1.stored.rely hr, fun hb => hres.2 (hb ▸ rfl)⟩
      | none => exact ih (attempt + 1) hres.1
    split
    · refine wp_call_of (fun _ _ hr _ h => h.rely hr) h fun w _ h => ⟨trivial, fun r w' _ hs => ?_⟩
      rcases act_eq hs with ⟨-, rfl⟩
      exact hattempt h
    · exact hattempt h

/-- The upload of a key whose file, if it is the playlist, has been checked. -/
theorem wp_uploadLocalFileWithPresign (h : Ready spotId names key w) :
    (contract playlist spotId).wp () (self.uploadLocalFileWithPresign parse key contentType path)
      (fun b w => Stored spotId names w ∧ (b = true → key ∈ w.stored)) (fun _ => False) w := by
  have refused : ∀ {w}, Ready spotId names key w →
      (contract playlist spotId).wp () (.ret false : Prog Host Bool)
        (fun b w => Stored spotId names w ∧ (b = true → key ∈ w.stored)) (fun _ => False) w :=
    fun h _ hr _ => ⟨h.stored.rely hr, fun hb => by cases hb⟩
  rw [ApiClient.uploadLocalFileWithPresign]
  refine wp_call_of (fun _ _ hr _ h => h.rely hr) h fun w _ h => ⟨trivial, fun r w' _ hact => ?_⟩
  rcases act_eq hact with ⟨hreply, rfl⟩
  cases r with
  | none => exact refused h
  | some fsize =>
  dsimp only
  split
  · exact refused h
  refine wp_transferAttempts 0 _ ⟨h.stored, fun hk => ?_⟩
  rcases h.check hk with ⟨v, hv, hcover, c, hc, hb⟩
  refine ⟨v, hv, hcover, fun hpath => ?_⟩
  -- the size is that of the current version, which is the checked one or a later one
  have hlen : fsize = c.text.length := by simpa [fileReply, hpath, hc] using hreply
  exact ⟨c, hlen, hb, c, hc, .refl c⟩

end

theorem stored_look {playlist : Str} {c : HostCall} (hc : c.IsLook) (r : c.Reply) (w : World) :
    (after w playlist c r).stored = w.stored := by
  unfold after
  split <;> first | rfl | cases hc

/-- Good segments are those whose key is stored, and the checked text is a version that was there. -/
def rules (playlist spotId : Str) (parse : Str → Option Json) (self : ApiClient) :
    PollRules (contract playlist spotId) (self.uploadLocalFileWithPresign parse) spotId where
  Good n w := s3KeyForFile spotId n ∈ w.stored
  Checked t w := ∃ v, w.checked = some v ∧ v.text = t ∧ Upto v w
  Dir d := pathAppend d Config.HLS_PLAYLIST_NAME = playlist
  good_rely hr _ hg := by rwa [hr.stored]
  checked_rely hr _ hc := by
    rcases hc with ⟨v, hv, ht, hup⟩
    exact ⟨v, hr.checked ▸ hv, ht, hup.rely hr⟩
  look_pre {c _} hc _ := by cases c <;> trivial
  look_act {c r _ w _} hc _ _ hs hg := by
    rcases act_eq hs with ⟨-, rfl⟩
    rwa [stored_look hc]
  next_pre _ := trivial
  next_act _ _ hs hg := by
    rcases act_eq hs with ⟨-, rfl⟩
    exact hg
  next_dir _ hs := of_decide_eq_true (act_eq hs).1
  read_act {d t w w'} hd _ _ hs := by
    rcases act_eq hs with ⟨hr, rfl⟩
    obtain ⟨v, hv, rfl⟩ : ∃ v, w.playlist = some v ∧ v.text = t := by
      simpa [fileReply, hd] using hr
    exact ⟨v, by simp [after, hd, hv], rfl, v, hv, .refl v⟩
  segment _ hn hg := wp_uploadLocalFileWithPresign
    ⟨hg, fun hk => absurd (s3KeyForFile_injective _ hk) (playlist_ne_segment hn)⟩
  playlist {d t names w} _ hc hg hn := by
    rcases hc with ⟨v, hv, rfl, hup⟩
    exact wp_mono (wp_uploadLocalFileWithPresign ⟨hg, fun _ => ⟨v, hv, hn, hup⟩⟩)
      (fun _ _ _ h => h.1) fun _ _ h => h

/-- Before the first replacement. -/
def init : World := ⟨none, none, none, [], []⟩

/-- In every run in which each PUT of the playlist that is answered 2xx has opened the version that
the check read, such a PUT sends only names of stored segments. -/
theorem put_lists_stored_segments (parse : Str → Option Json) (self : ApiClient)
    (playlist spotId : Str)
    {cfg cfg' : Config (uploaderCode (self.uploadLocalFileWithPresign parse) spotId) World}
    {l : PutLabel}
    (hrun : Run (machine playlist) (PutOpensChecked spotId)
      (uploaderStart (self.uploadLocalFileWithPresign parse) spotId init) cfg)
    (hok : PutOpensChecked spotId cfg.world l) (hstep : Step (machine playlist) cfg l cfg') :
    SafePut spotId cfg.world l := by
  have hvalid := (rules playlist spotId parse self).proof.sound
    (valid_uploaderStart _ trivial) hrun
  cases l with
  | act t c r =>
    cases c with
    | put url headers file infileSize =>
      -- the proof speaks of the pending PUT; the condition adds that the version is the checked one
      exact fun hsucc hkey => hvalid.pre hstep.pending hkey (hok hsucc hkey)
    | _ => trivial
  | _ => trivial

/-! ## A replacement between the check and the PUT -/

def indexPath : Str := pathAppend Config.HLS_OUTPUT_DIR Config.HLS_PLAYLIST_NAME

def presignBody : Str := "\x7b\"url\":\"https://bucket/index\"\x7d".toList

/-- The JSON library on the one body that is answered below. -/
def parsePresignBody (body : Str) : Option Json :=
  if body = presignBody then
    some (.object [("url".toList, .string "https://bucket/index".toList)])
  else none

/-- A directory with these segment files, of two bytes each, and servers that accept everything. -/
def willingReply (segments : List Str) (w : World) : (c : HostCall) → c.Reply
  | .isDirectory _ => true
  | .directoryEntries _ => some (segments ++ [Config.HLS_PLAYLIST_NAME])
  | .isRegularFile _ => some true
  | .fileSize path =>
    if path = indexPath then w.playlist.map fun v => v.text.length else some 2
  | .fileExists _ => some w.playlist.isSome
  | .lastWriteTime _ => w.playlist.map (·.mtime)
  | .readText _ => w.playlist.map (·.text)
  | .openBinary path =>
    if path = indexPath then w.playlist.map (·.text) else some "AB".toList
  | .sleepFor _ => ()
  | .curlEasyInit => true
  | .presignPost _ _ _ _ => some ⟨.ok, 200, presignBody⟩
  | .put _ _ _ _ => ⟨.ok, 200, []⟩
  | .uploadLocalFileWithPresign _ _ _ => true
  | .nextCall => .pollAndUpload Config.HLS_OUTPUT_DIR

def siteClient : ApiClient := ⟨"https://api".toList, "key".toList⟩

abbrev siteCode : Code Host Unit :=
  uploaderCode (siteClient.uploadLocalFileWithPresign parsePresignBody) "A".toList

abbrev siteStart : Config siteCode World := uploaderStart _ _ init

/-- The PUT of an eight byte playlist. -/
abbrev sitePut (text : Str) : HostCall := .put "https://bucket/index".toList [] text 8

/-- The uploader makes so many calls. -/
def calls (segments : List Str) (n : Nat) : List (Choice Host Unit World Replace) :=
  List.replicate n (.run () fun w c => some (willingReply segments w c))

instance (spotId : Str) (w : World) (l : PutLabel) : Decidable (PutOpensChecked spotId w l) := by
  unfold PutOpensChecked
  split <;> infer_instance

/-- A poll uploads a segment, and then the playlist that lists it. -/
theorem put_lists_stored_segments_unreplaced :
    ∃ (cfg : Config siteCode World) (r : HttpReply),
      cfg.pending () = some (sitePut "seg1.ts\n".toList) ∧ r.success ∧
        cfg.world.presigned = s3KeyForFile "A".toList Config.HLS_PLAYLIST_NAME ∧
          SafePut "A".toList cfg.world (.act () (sitePut "seg1.ts\n".toList) r) := by
  obtain ⟨cfg, hrun, h⟩ := exec_reaches (machine indexPath)
    (fun w l => PutOpensChecked "A".toList w l) siteStart
    (.env ⟨"seg1.ts\n".toList, 1⟩ :: calls ["seg1.ts".toList] 30)
    (fun cfg => cfg.pending () = some (sitePut "seg1.ts\n".toList) ∧
      cfg.world.opened = cfg.world.checked ∧
        cfg.world.presigned = s3KeyForFile "A".toList Config.HLS_PLAYLIST_NAME)
    (by decide +kernel)
  rcases of_decide_eq_true h with ⟨hput, hopened, hkey⟩
  rcases cfg.step_of_pending (M := machine indexPath) hput ⟨.ok, 200, []⟩ rfl with ⟨cfg', hstep⟩
  refine ⟨cfg, ⟨.ok, 200, []⟩, hput, rfl, hkey, ?_⟩
  exact put_lists_stored_segments parsePresignBody siteClient indexPath "A".toList
    (hrun.mono fun _ _ => of_decide_eq_true) (fun _ _ => hopened) hstep

/-- When the encoder replaces a checked playlist by one of equal length that lists a new segment,
the new text is sent and accepted with the segment missing. -/
theorem unchecked_playlist_is_sent :
    ∃ (cfg cfg' : Config siteCode World) (l : PutLabel),
      Run (machine indexPath) anyStep siteStart cfg ∧ Step (machine indexPath) cfg l cfg' ∧
        ¬ SafePut "A".toList cfg.world l := by
  obtain ⟨cfg, hrun, h⟩ := exec_reaches (machine indexPath) (fun _ _ => true) siteStart
    (.env ⟨"#EXTM3U\n".toList, 1⟩ :: calls [] 16 ++ .env ⟨"seg1.ts\n".toList, 2⟩ :: calls [] 2)
    (fun cfg => cfg.pending () = some (sitePut "seg1.ts\n".toList) ∧
      cfg.world.presigned = s3KeyForFile "A".toList Config.HLS_PLAYLIST_NAME ∧
      s3KeyForFile "A".toList "seg1.ts".toList ∉ cfg.world.stored) (by decide +kernel)
  rcases of_decide_eq_true h with ⟨hput, hkey, hseg⟩
  rcases cfg.step_of_pending (M := machine indexPath) hput ⟨.ok, 200, []⟩ rfl with ⟨cfg', hstep⟩
  refine ⟨cfg, cfg', _, hrun.mono fun _ _ _ => trivial, hstep, fun hsafe => hseg ?_⟩
  exact hsafe rfl hkey "seg1.ts".toList (by decide +kernel)

end Publish

end SurfCam
