import PluginHost.Proofs.Release.Integrity
import PluginHost.Proofs.Text.SmallLetters

/-!
# Checksums in other letters

Checksums are recognised twice.  The choice of an asset passes over all names that end with `.sha256`
in any letter case; the check of an asset looks for a single name, in exactly these letters.

What the check looks for is always passed over by the choice (`isPublishedFor_of_name`).  The converse
fails: a checksum in other letters is neither chosen nor looked at.  `download_checks_iff` draws the
line.  It follows a download to the bytes that are stored (`download_ok`) and counts its requests
(`checksAgainst_iff`): a second one is made only for the very name.
-/

namespace PluginHost.Release

open FileTree PluginHost.Path FileAction

/-- The asset is recognised as a checksum, and but for the case of letters its name is that of the
other asset with `.sha256` behind it. -/
structure IsPublishedFor (a c : Asset) : Prop where
  ending : ".sha256".toList <:+ (Text.lowercase c.name).toList
  name : Text.lowercase c.name = Text.lowercase (a.name ++ ".sha256")

/-- The checksum has been asked for right behind the asset, and what is published there agrees with
the bytes: its first word in small letters is their digest. -/
structure Service.ChecksAgainst (s : Service) (a c : Asset) (before after : World) (body : Bytes) :
    Prop where
  requests : after.requests = before.requests ++ [s.assetRequest a, s.assetRequest c]
  agrees : ∃ text word,
    ((before.given (s.assetRequest a)).reply (s.assetRequest c)).body? = some text ∧
      Text.IsFirstWord (lossyText text).toList word ∧
      Text.lowercase (String.ofList word) = Checksum.sha256Text body

theorem areSmall_checksumEnding : Text.AreSmall ".sha256".toList := by
  decide +kernel

theorem isPublishedFor_of_name {a c : Asset} (h : c.name = a.name ++ ".sha256") :
    IsPublishedFor a c where
  ending := by
    rw [h]
    exact Text.suffix_lowercase areSmall_checksumEnding a.name
  name := congrArg Text.lowercase h

theorem companion?_name {assets : List Asset} {a c : Asset} (h : companion? assets a = some c) :
    c ∈ assets ∧ c.name = a.name ++ ".sha256" := by
  have hname := List.find?_some h
  exact ⟨List.mem_of_find?_eq_some h, beq_iff_eq.1 hname⟩

theorem companion?_eq_none_iff {assets : List Asset} {a : Asset} :
    companion? assets a = none ↔ ∀ c ∈ assets, c.name ≠ a.name ++ ".sha256" := by
  simp only [companion?, List.find?_eq_none, beq_iff_eq]
  rfl

section Download

variable {s : Service} {r : Release} {directory path : Path} {w : World} {a : Asset}

/-- A download that succeeds has stored bytes that were fetched and checked, and asks for nothing
more. -/
theorem download_ok (hselect : select r.assets thisSystem thisMachine = some a)
    (hok : (s.download r directory w).1 = .ok path) :
    ∃ body, s.Verified r a w body ∧
      (s.download r directory w).2.files.read path = .ok body ∧
      (s.download r directory w).2.requests = w.requests ++ s.asked r a w := by
  have hrequests := fetchVerified_requests s r a w
  have hverified := @fetchVerified_ok_iff s r a w
  rw [download_some hselect] at hok ⊢
  cases hfetch : s.fetchVerified r a w with
  | mk result fetched =>
      rw [hfetch] at hok hrequests hverified
      cases result with
      | error e => cases hok
      | ok body =>
          dsimp only at hok ⊢
          rw [Task.onFiles_eq] at hok ⊢
          exact ⟨body, hverified.1 rfl, (store_ok (Prod.ext hok rfl)).2, hrequests⟩

/-- What has been asked for when the bytes are there. -/
theorem asked_of_verified {body : Bytes} (h : s.Verified r a w body) :
    s.asked r a w = s.assetRequest a :: (companion? r.assets a).toList.map s.assetRequest := by
  rw [Service.asked, h.answered]
  rfl

/-- The bytes are checked exactly if a checksum has the very name. -/
theorem checksAgainst_iff {after : World} {body : Bytes} (hverified : s.Verified r a w body)
    (hrequests : after.requests = w.requests ++ s.asked r a w) :
    (∃ c ∈ r.assets, IsPublishedFor a c ∧ s.ChecksAgainst a c w after body) ↔
      ∃ c ∈ r.assets, c.name = a.name ++ ".sha256" := by
  rw [asked_of_verified hverified] at hrequests
  cases hcompanion : companion? r.assets a with
  | none =>
      have hnone := companion?_eq_none_iff.1 hcompanion
      refine iff_of_false ?_ fun ⟨c, hc, hname⟩ => hnone c hc hname
      intro ⟨c, hc, hpublished, hchecks⟩
      have hcounts := congrArg List.length (hchecks.requests.symm.trans hrequests)
      simp [hcompanion] at hcounts
  | some c =>
      obtain ⟨hc, hname⟩ := companion?_name hcompanion
      refine iff_of_true ⟨c, hc, isPublishedFor_of_name hname, ?_, ?_⟩ ⟨c, hc, hname⟩
      · rw [hrequests, hcompanion]
        rfl
      · exact hverified.published c hcompanion

/-- A download that succeeds has asked for a published checksum and found its bytes to agree with it
exactly if a checksum has the name of the asset with `.sha256` behind it, letter for letter.  Such a
checksum is always one that the choice of the asset has recognised. -/
theorem download_checks_iff (hselect : select r.assets thisSystem thisMachine = some a)
    (hok : (s.download r directory w).1 = .ok path) :
    ((∃ c ∈ r.assets, IsPublishedFor a c ∧ ∃ body,
        (s.download r directory w).2.files.read path = .ok body ∧
          s.ChecksAgainst a c w (s.download r directory w).2 body) ↔
      ∃ c ∈ r.assets, c.name = a.name ++ ".sha256") ∧
    ∀ c ∈ r.assets, c.name = a.name ++ ".sha256" → IsPublishedFor a c := by
  obtain ⟨body, hverified, hread, hrequests⟩ := download_ok hselect hok
  refine ⟨?_, fun c _ => isPublishedFor_of_name⟩
  rw [← checksAgainst_iff hverified hrequests]
  constructor
  · intro ⟨c, hc, hpublished, body', hread', hchecks⟩
    rw [hread] at hread'
    cases hread'
    exact ⟨c, hc, hpublished, hchecks⟩
  · intro ⟨c, hc, hpublished, hchecks⟩
    exact ⟨c, hc, hpublished, body, hread, hchecks⟩

end Download

/-- A release with a checksum whose name ends in capital letters. -/
def capitalRelease : Release where
  tag := "v1"
  assets := [⟨"foo_linux", "http://host/foo", 0⟩, ⟨"foo_linux.SHA256", "http://host/sum", 0⟩]

/-- A client that gets bytes for the asset, and a checksum that is not theirs. -/
def capitalWorld : World where
  files := { entries := [], workingDirectory := [] }
  client := .getting [.answered 200 (some (utf8 "x")), .answered 200 (some (utf8 "00"))]

/-- The checksum is recognised, but the bytes are stored without a look at it. -/
theorem download_checks_capital :
    ((Service.at "http://host" none).download capitalRelease (utf8 "/d") capitalWorld).1 =
        .ok (utf8 "/d/foo_linux") ∧
      IsPublishedFor ⟨"foo_linux", "http://host/foo", 0⟩ ⟨"foo_linux.SHA256", "http://host/sum", 0⟩ ∧
      ¬∃ c ∈ capitalRelease.assets, IsPublishedFor ⟨"foo_linux", "http://host/foo", 0⟩ c ∧ ∃ body,
        ((Service.at "http://host" none).download capitalRelease (utf8 "/d")
            capitalWorld).2.files.read (utf8 "/d/foo_linux") = .ok body ∧
          (Service.at "http://host" none).ChecksAgainst ⟨"foo_linux", "http://host/foo", 0⟩ c
            capitalWorld
            ((Service.at "http://host" none).download capitalRelease (utf8 "/d") capitalWorld).2
            body := by
  have hselect : select capitalRelease.assets thisSystem thisMachine =
      some ⟨"foo_linux", "http://host/foo", 0⟩ := by
    decide +kernel
  have hok : ((Service.at "http://host" none).download capitalRelease (utf8 "/d") capitalWorld).1 =
      .ok (utf8 "/d/foo_linux") := by
    decide +kernel
  have hname : ∀ c ∈ capitalRelease.assets, c.name ≠ "foo_linux" ++ ".sha256" := by
    decide +kernel
  have hpublished : IsPublishedFor ⟨"foo_linux", "http://host/foo", 0⟩
      ⟨"foo_linux.SHA256", "http://host/sum", 0⟩ :=
    ⟨by decide +kernel, by decide +kernel⟩
  refine ⟨hok, hpublished, ?_⟩
  rw [(download_checks_iff hselect hok).1]
  intro ⟨c, hc, heq⟩
  exact hname c hc heq

end PluginHost.Release
