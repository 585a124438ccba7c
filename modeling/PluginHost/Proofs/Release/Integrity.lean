import PluginHost.Proofs.Files.Reading
import PluginHost.Proofs.Release.Downloading

/-!
# What a download asks for, and what it keeps

A download gives a request for the chosen asset to the client and, once that has come, one for the
checksum that is published for it, and no other (`fetchVerified_requests`).  The bytes are kept only
if they agree with the published checksum: `Service.Verified` says what the client has to get, and
`fetchVerified_ok_iff` that the asset is fetched exactly then.  The client may be any; how it gets its
replies, over redirects for instance, does not matter.  Nothing is written before that, so
`download_integrity` says of every download that the file it returns holds the bytes of the asset,
and that a failure leaves every file as it was.
-/

namespace PluginHost

/-- The body of an answer whose status says that the request succeeded. -/
def HttpReply.body? : HttpReply → Option Bytes
  | .broken => none
  | .answered status body => if 200 ≤ status ∧ status < 300 then body else none

namespace World

/-- What the client gets for a request. -/
def reply (w : World) (r : HttpRequest) : HttpReply := w.client w.requests r

/-- The world in which the client has been given a request. -/
def given (w : World) (r : HttpRequest) : World := { w with requests := w.requests ++ [r] }

end World

namespace Text

/-- The first word of a text: blanks may stand before it, and a blank or nothing behind it.  It is
empty only if the text is all blank. -/
def IsFirstWord (cs word : List Char) : Prop :=
  ∃ blanks rest, cs = blanks ++ word ++ rest ∧ (∀ c ∈ blanks, isBlank c = true) ∧
    (∀ c ∈ word, isBlank c = false) ∧ (∀ c, rest.head? = some c → isBlank c = true) ∧
    (word = [] → rest = [])

theorem isFirstWord_firstWord (cs : List Char) : IsFirstWord cs (firstWord cs) := by
  refine ⟨cs.takeWhile isBlank, (trimStart cs).dropWhile (!isBlank ·), ?_, ?_, ?_, ?_, ?_⟩
  · rw [List.append_assoc, firstWord, List.takeWhile_append_dropWhile, trimStart,
      List.takeWhile_append_dropWhile]
  · intro c hc
    exact List.mem_takeWhile_imp hc
  · intro c hc
    simpa using List.mem_takeWhile_imp hc
  · intro c hc
    have hhead := List.head?_dropWhile_not (!isBlank ·) (trimStart cs)
    rw [hc] at hhead
    simpa using hhead
  · intro hword
    cases htrim : trimStart cs with
    | nil => rfl
    | cons c rest =>
        have hc := List.head?_dropWhile_not isBlank cs
        rw [show cs.dropWhile isBlank = c :: rest from htrim] at hc
        rw [firstWord, htrim, List.takeWhile_cons_of_pos (by simpa using hc)] at hword
        cases hword

theorem firstWord_of_isFirstWord {cs word : List Char} (h : IsFirstWord cs word) :
    firstWord cs = word := by
  obtain ⟨blanks, rest, rfl, hblanks, hword, hrest, hempty⟩ := h
  have htrim : trimStart (blanks ++ word ++ rest) = word ++ rest := by
    rw [trimStart, List.append_assoc, List.dropWhile_append_of_pos hblanks]
    cases word with
    | nil => simp [hempty rfl]
    | cons c more =>
        have hc : isBlank c = false := hword c (by simp)
        rw [List.cons_append, List.dropWhile_cons_of_neg (by simp [hc])]
  rw [firstWord, htrim, List.takeWhile_append_of_pos (by simpa using hword)]
  cases rest with
  | nil => simp
  | cons c more =>
      have hc : isBlank c = true := hrest c rfl
      rw [List.takeWhile_cons_of_neg (by simp [hc]), List.append_nil]

end Text

namespace Release

open FileTree PluginHost.Path FileAction

/-! ## Requests -/

/-- The request for an asset. -/
def Service.assetRequest (s : Service) (a : Asset) : HttpRequest :=
  ⟨a.url, "application/octet-stream", s.token.map ("Bearer " ++ ·)⟩

theorem bodyOf_ok_iff {url : String} {reply : HttpReply} {body : Bytes} :
    bodyOf url reply = .ok body ↔ reply.body? = some body := by
  cases reply with
  | broken => simp [bodyOf, HttpReply.body?]
  | answered status data =>
      by_cases hstatus : 200 ≤ status ∧ status < 300
      · cases data <;> simp [bodyOf, HttpReply.body?, hstatus]
      · simp only [HttpReply.body?, if_neg hstatus, bodyOf, Bool.and_eq_true, decide_eq_true_eq]
        split_ifs <;> simp

theorem fetchAsset_run (s : Service) (a : Asset) (w : World) :
    s.fetchAsset a w =
      (bodyOf a.url (w.reply (s.assetRequest a)), w.given (s.assetRequest a)) := by
  unfold Service.fetchAsset Service.fetch
  rw [bind_run]
  rfl

/-- What a download asks for, as far as the answers let it go. -/
def Service.asked (s : Service) (r : Release) (a : Asset) (w : World) : List HttpRequest :=
  s.assetRequest a ::
    if (w.reply (s.assetRequest a)).body?.isSome then
      (companion? r.assets a).toList.map s.assetRequest
    else []

/-- The asset comes and agrees with its published checksum, if there is one: its digest is the first
word of what is published, in small letters. -/
structure Service.Verified (s : Service) (r : Release) (a : Asset) (w : World) (body : Bytes) :
    Prop where
  answered : (w.reply (s.assetRequest a)).body? = some body
  published : ∀ c, companion? r.assets a = some c → ∃ text word,
    ((w.given (s.assetRequest a)).reply (s.assetRequest c)).body? = some text ∧
      Text.IsFirstWord (lossyText text).toList word ∧
      Text.lowercase (String.ofList word) = Checksum.sha256Text body

/-! ## Fetching -/

theorem verify_ok_iff {a : Asset} {data published : Bytes} :
    verify a data published = .ok () ↔ ∃ word,
      Text.IsFirstWord (lossyText published).toList word ∧
        Text.lowercase (String.ofList word) = Checksum.sha256Text data := by
  simp only [verify, publishedChecksum, beq_iff_eq]
  constructor
  · intro h
    split at h
    · rename_i hsame
      exact ⟨_, Text.isFirstWord_firstWord _, hsame.symm⟩
    · cases h
  · rintro ⟨word, hword, hsame⟩
    rw [Text.firstWord_of_isFirstWord hword, if_pos hsame.symm]

/-- What follows when the bytes of an asset have come. -/
def Service.check (s : Service) (r : Release) (a : Asset) (data : Bytes) :
    Task ReleaseError Bytes := do
  match companion? r.assets a with
  | some c =>
      let published ← s.fetchAsset c
      ExceptT.mk (pure (verify a data published))
      pure data
  | none => pure data

theorem fetchVerified_eq (s : Service) (r : Release) (a : Asset) :
    s.fetchVerified r a = s.fetchAsset a >>= s.check r a := rfl

section Check

variable {s : Service} {r : Release} {a : Asset}

theorem check_run_none (h : companion? r.assets a = none) (data : Bytes) (w : World) :
    s.check r a data w = (.ok data, w) := by
  unfold Service.check
  rw [h]
  rfl

theorem check_run_some {c : Asset} (h : companion? r.assets a = some c) (data : Bytes)
    (w : World) :
    s.check r a data w =
      ((bodyOf c.url (w.reply (s.assetRequest c))).bind fun published =>
        (verify a data published).map fun _ => data, w.given (s.assetRequest c)) := by
  unfold Service.check
  rw [h]
  dsimp only
  rw [bind_run, fetchAsset_run]
  cases bodyOf c.url (w.reply (s.assetRequest c)) with
  | error e => rfl
  | ok published =>
      simp only [Except.bind, mk_bind_run]
      cases verify a data published <;> rfl

theorem check_requests (data : Bytes) (w : World) :
    (s.check r a data w).2.requests =
      w.requests ++ (companion? r.assets a).toList.map s.assetRequest := by
  cases h : companion? r.assets a with
  | none =>
      rw [check_run_none h]
      simp
  | some c =>
      rw [check_run_some h]
      rfl

theorem check_ok_iff {data body : Bytes} {w : World} :
    (s.check r a data w).1 = .ok body ↔
      body = data ∧ ∀ c, companion? r.assets a = some c → ∃ text word,
        (w.reply (s.assetRequest c)).body? = some text ∧
          Text.IsFirstWord (lossyText text).toList word ∧
          Text.lowercase (String.ofList word) = Checksum.sha256Text data := by
  cases h : companion? r.assets a with
  | none =>
      rw [check_run_none h]
      simp [eq_comm]
  | some c =>
      rw [check_run_some h]
      constructor
      · intro hok
        cases hpublished : bodyOf c.url (w.reply (s.assetRequest c)) with
        | error e =>
            rw [hpublished] at hok
            cases hok
        | ok published =>
            rw [hpublished] at hok
            cases hverify : verify a data published with
            | error e =>
                simp only [Except.bind, hverify, Except.map] at hok
                cases hok
            | ok u =>
                simp only [Except.bind, hverify, Except.map] at hok
                cases hok
                obtain ⟨word, hword⟩ := verify_ok_iff.1 hverify
                refine ⟨rfl, fun c' hc' => ?_⟩
                cases hc'
                exact ⟨published, word, bodyOf_ok_iff.1 hpublished, hword⟩
      · rintro ⟨rfl, hall⟩
        obtain ⟨text, word, htext, hword⟩ := hall c rfl
        simp only [bodyOf_ok_iff.2 htext, Except.bind, verify_ok_iff.2 ⟨word, hword⟩, Except.map]

end Check

theorem fetchVerified_requests (s : Service) (r : Release) (a : Asset) (w : World) :
    (s.fetchVerified r a w).2.requests = w.requests ++ s.asked r a w := by
  rw [fetchVerified_eq, bind_run, fetchAsset_run]
  unfold Service.asked
  cases hbody : bodyOf a.url (w.reply (s.assetRequest a)) with
  | error e =>
      have hnone : (w.reply (s.assetRequest a)).body? = none := by
        rw [Option.eq_none_iff_forall_ne_some]
        intro body h
        rw [bodyOf_ok_iff.2 h] at hbody
        cases hbody
      rw [hnone]
      rfl
  | ok data =>
      dsimp only
      rw [check_requests, bodyOf_ok_iff.1 hbody, World.given, List.append_assoc]
      rfl

/-- An asset is fetched exactly if it comes and agrees with what is published. -/
theorem fetchVerified_ok_iff {s : Service} {r : Release} {a : Asset} {w : World} {body : Bytes} :
    (s.fetchVerified r a w).1 = .ok body ↔ s.Verified r a w body := by
  rw [fetchVerified_eq, bind_run, fetchAsset_run]
  cases hbody : bodyOf a.url (w.reply (s.assetRequest a)) with
  | error e =>
      constructor
      · intro h
        cases h
      · intro h
        rw [bodyOf_ok_iff.2 h.answered] at hbody
        cases hbody
  | ok data =>
      have hdata := bodyOf_ok_iff.1 hbody
      dsimp only
      rw [check_ok_iff]
      constructor
      · rintro ⟨rfl, hpublished⟩
        exact ⟨hdata, hpublished⟩
      · intro h
        rw [h.answered] at hdata
        cases hdata
        exact ⟨rfl, h.published⟩

/-! ## Downloading -/

theorem store_run (directory : Path) (name : String) (data : Bytes) (t : FileTree) :
    store directory name data t =
      match t.makeDirectories directory with
      | (.error e, made) => (.error (.io e), made)
      | (.ok (), made) =>
          match made.write (join directory (utf8 name)) data with
          | .error e => (.error (.io e), made)
          | .ok written => (.ok (join directory (utf8 name)), written) := by
  unfold store
  rw [bind_run, changeAll_eq]
  cases t.makeDirectories directory with
  | mk r made =>
      cases r with
      | error e => rfl
      | ok u =>
          simp only [Except.mapError]
          rw [bind_run]
          unfold change
          dsimp only
          cases made.write (join directory (utf8 name)) data <;> rfl

theorem store_ok {directory path : Path} {name : String} {data : Bytes} {t t' : FileTree}
    (h : store directory name data t = (.ok path, t')) :
    path = join directory (utf8 name) ∧ t'.read path = .ok data := by
  rw [store_run] at h
  split at h
  · cases h
  · split at h
    · cases h
    · rename_i written hwrite
      cases h
      exact ⟨rfl, read_write hwrite⟩

theorem download_none {s : Service} {r : Release} (h : select r.assets thisSystem thisMachine = none)
    (directory : Path) (w : World) :
    s.download r directory w = (.error (.noAsset r.tag thisSystem), w) := by
  unfold Service.download
  rw [h]
  rfl

theorem download_some {s : Service} {r : Release} {a : Asset}
    (h : select r.assets thisSystem thisMachine = some a) (directory : Path) (w : World) :
    s.download r directory w =
      match s.fetchVerified r a w with
      | (.ok data, fetched) => Task.onFiles (store directory a.name data) fetched
      | (.error e, fetched) => (.error e, fetched) := by
  unfold Service.download
  rw [h]
  show (s.fetchVerified r a >>= _) w = _
  rw [bind_run]
  cases s.fetchVerified r a w with
  | mk result fetched => cases result <;> rfl

end Release

end PluginHost
