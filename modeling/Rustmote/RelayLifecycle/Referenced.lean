import Rustmote.Foundations.ImageReference
import Rustmote.RelayLifecycle.Commands

/-!
# The image references of `pinned_image_ref`

`validate_tag` and `validate_digest` accept tags and digests of Docker's reference grammar. So does
`validate_repo` with names, but for one thing: it looks at the two ends of a repository for
separators and not inside, where it refuses the component `..` only. A repository such as `a//b` or
`a/.b` is accepted, and is no name. What is built from an accepted repository is a reference of the
grammar, and is read as what it was built from, just when the repository is tidy:
`pinned_reference_iff`.
-/

namespace Rustmote.Commands

open ImageReference (Reference Name Tag Digest isAlnum isSeparator tidy)

/-- The text derives from the reference grammar, and is read by it as this repository, tag and
digest only. -/
def ReadsAs (s repo tag digest : Str) : Prop :=
  (∃ n t d, Reference s n t d) ∧
    ∀ n t d, Reference s n t d → n = repo ∧ t = some tag ∧ d = some digest

variable {repo tag digest s : Str}

theorem isRepoChar_eq (c : Char) : isRepoChar c = (isAlnum c || isSeparator c) := by
  simp only [isRepoChar, isAlnum, isSeparator]
  ac_rfl

theorem isRepoSeparator_eq (c : Char) : isRepoSeparator c = isSeparator c := by
  simp only [isRepoSeparator, isSeparator]
  ac_rfl

/-- **Which repositories are names**: the tidy ones. -/
theorem name_iff_tidy (h : validateRepo repo = .ok repo) : Name repo ↔ tidy repo = true := by
  have hchars := isRepoChar_of_valid h
  unfold validateRepo at h
  split_ifs at h with h₁ h₂ h₃ h₄
  obtain ⟨hne, -⟩ := not_or.mp h₁
  obtain ⟨hhead, hlast⟩ := not_or.mp h₃
  refine ImageReference.name_iff hne (fun c hc => isRepoChar_eq c ▸ hchars c hc) ?_ ?_
  · intro c hc
    rw [hc] at hhead
    simpa [isRepoSeparator_eq] using hhead
  · intro c hc
    rw [hc] at hlast
    simpa [isRepoSeparator_eq] using hlast

/-- A character of a range is at most its end. -/
theorem toNat_le_of_range {c : Char} (lo hi : UInt32)
    (h : (decide (c.val ≥ lo) && decide (c.val ≤ hi)) = true) : c.toNat ≤ hi.toNat :=
  UInt32.le_iff_toNat_le.mp (of_decide_eq_true (Bool.and_eq_true_iff.mp h).2)

theorem toNat_le_of_isDigit {c : Char} (h : c.isDigit = true) : c.toNat ≤ 0x7F :=
  (toNat_le_of_range 48 57 h).trans (by decide)

theorem toNat_le_of_isAlphanum {c : Char} (h : c.isAlphanum = true) : c.toNat ≤ 0x7F := by
  rcases Bool.or_eq_true_iff.mp h with halpha | hdigit
  · rcases Bool.or_eq_true_iff.mp halpha with hupper | hlower
    · have hZ : c.val ≤ 90 := (of_decide_eq_true hupper).2
      exact (UInt32.le_iff_toNat_le.mp hZ).trans (by decide)
    · exact (toNat_le_of_range 97 122 hlower).trans (by decide)
  · exact toNat_le_of_isDigit hdigit

theorem toNat_le_of_isTagChar {c : Char} (h : isTagChar c = true) : c.toNat ≤ 0x7F := by
  simp only [isTagChar, Bool.or_eq_true, decide_eq_true_eq] at h
  rcases h with ((h | rfl) | rfl) | rfl
  · exact toNat_le_of_isAlphanum h
  all_goals decide

/-- An accepted tag is a tag of the grammar. -/
theorem tag_of_validTag (h : validateTag tag = .ok tag) : Tag tag := by
  have hchars := isTagChar_of_valid h
  unfold validateTag at h
  split_ifs at h with h₁ h₂ h₃
  obtain ⟨hne, hlen⟩ := not_or.mp h₁
  obtain ⟨hdot, hdash⟩ := not_or.mp h₂
  rw [Utf8.len_eq_length fun c hc => toNat_le_of_isTagChar (hchars c hc)] at hlen
  obtain ⟨c, rest, rfl⟩ := List.exists_cons_of_ne_nil hne
  refine ⟨c, rest, rfl, ?_, ?_, fun d hd => hchars d (List.mem_cons_of_mem _ hd)⟩
  · have hc := hchars c List.mem_cons_self
    have hdot' : c ≠ '.' := fun hc => hdot (congrArg some hc)
    have hdash' : c ≠ '-' := fun hc => hdash (congrArg some hc)
    simpa [isTagChar, hdot', hdash'] using hc
  · rw [List.length_cons] at hlen
    omega

/-- The hex digits that are no upper-case letters. -/
theorem isHexDigit_of_lower {c : Char} (h : isAsciiHexDigit c = true) (hlower : c.isUpper = false) :
    ImageReference.isHexDigit c = true := by
  rcases Bool.or_eq_true_iff.mp h with hhex | hupper
  · exact hhex
  · -- A letter from `A` to `F` is an upper-case letter.
    obtain ⟨hA, hF⟩ := Bool.and_eq_true_iff.mp hupper
    have hZ : 'F'.val ≤ 90 := by decide
    have hupper : c.isUpper = true :=
      decide_eq_true ⟨of_decide_eq_true hA, UInt32.le_trans (of_decide_eq_true hF) hZ⟩
    rw [hlower] at hupper
    cases hupper

theorem toNat_le_of_isHexDigit {c : Char} (h : ImageReference.isHexDigit c = true) :
    c.toNat ≤ 0x7F := by
  rcases Bool.or_eq_true_iff.mp h with h | h
  · exact toNat_le_of_isDigit h
  · exact (toNat_le_of_range 97 102 h).trans (by decide)

/-- An accepted digest is a digest of the grammar. -/
theorem digest_of_validDigest (h : validateDigest digest = .ok digest) : Digest digest := by
  obtain ⟨hex, rfl, hlen, hall⟩ := validDigest h
  have hhex : ∀ c ∈ hex, ImageReference.isHexDigit c = true := fun c hc =>
    isHexDigit_of_lower (hall c hc).1 (hall c hc).2
  rw [Utf8.len_eq_length fun c hc => toNat_le_of_isHexDigit (hhex c hc)] at hlen
  exact ⟨hex, rfl, hlen, hhex⟩

theorem imageRef_eq (repo tag digest : Str) :
    imageRef repo tag digest = repo ++ ((some tag).elim [] (':' :: ·) ++
      (some digest).elim [] ('@' :: ·)) := by
  simp [imageRef]

/-- What is built from an accepted and tidy repository derives from the grammar. -/
theorem reference_of_tidy (h : ValidRef repo tag digest) (htidy : tidy repo = true) :
    Reference (imageRef repo tag digest) repo (some tag) (some digest) where
  text := imageRef_eq repo tag digest
  name := (name_iff_tidy h.repo).mpr htidy
  tag t ht := by
    obtain rfl := Option.some.inj ht
    exact tag_of_validTag h.tag
  digest d hd := by
    obtain rfl := Option.some.inj hd
    exact digest_of_validDigest h.digest

/-- **Which image references are references**: a string that `pinned_image_ref` returns derives
from the reference grammar and is read by it as the repository, the tag and the digest that it was
built from, if and only if the repository is tidy. -/
theorem pinned_reference_iff (h : pinnedImageRef repo tag digest = .ok s) :
    ReadsAs s repo tag digest ↔ tidy repo = true := by
  obtain ⟨hvalid, rfl⟩ := pinnedImageRef_eq_ok_iff.mp h
  constructor
  · rintro ⟨⟨n, t, d, href⟩, honly⟩
    obtain ⟨rfl, -, -⟩ := honly n t d href
    exact href.name.tidy
  · intro htidy
    have href := reference_of_tidy hvalid htidy
    exact ⟨⟨repo, some tag, some digest, href⟩, fun n t d href' => href.unique href'⟩

/-- The sample digest. -/
def sampleDigest : Str := "sha256:".toList ++ List.replicate 64 'a'

/-- A component with a dot and a dash in it. -/
theorem pinned_reference_sample :
    ReadsAs (imageRef "rustdesk/rustdesk-server.pro".toList "1.1.14".toList sampleDigest)
      "rustdesk/rustdesk-server.pro".toList "1.1.14".toList sampleDigest :=
  (pinned_reference_iff (by decide +kernel)).mpr (by decide)

/-- An empty component is accepted, and what is built from it is no reference. -/
theorem empty_component_accepted :
    pinnedImageRef "rustdesk//rustdesk-server".toList "1.1.14".toList sampleDigest =
        .ok (imageRef "rustdesk//rustdesk-server".toList "1.1.14".toList sampleDigest) ∧
      ¬ ReadsAs (imageRef "rustdesk//rustdesk-server".toList "1.1.14".toList sampleDigest)
        "rustdesk//rustdesk-server".toList "1.1.14".toList sampleDigest := by
  refine ⟨by decide +kernel, ?_⟩
  rintro ⟨⟨n, t, d, href⟩, honly⟩
  obtain ⟨rfl, -, -⟩ := honly n t d href
  have htidy := href.name.tidy
  revert htidy
  decide

end Rustmote.Commands
