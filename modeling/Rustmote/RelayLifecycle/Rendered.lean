import Rustmote.RelayLifecycle.Render

/-!
# The rendered compose file, line by line

A compose template carries a line `image: <repo>:<tag>` for each service. The renderer puts the
digest of a pin behind every text that reads like the pin's own `image: <repo>:<tag>`, on whatever
line it stands and whatever follows it. So a line comes out right exactly when the template has the
tag that is pinned, and no other pin of the repository has a tag that this one starts with
(`agrees_iff`).
-/

namespace Rustmote

/-! ### What a pin has none of -/

section Valid

variable {pin : ImagePin} (hpin : pin.Valid)

include hpin

theorem colon_not_mem_repo : ':' ∉ pin.repo := Commands.not_mem_of_validRepo hpin.repo (by decide)

theorem blank_not_mem_repo : ' ' ∉ pin.repo := Commands.not_mem_of_validRepo hpin.repo (by decide)

theorem blank_not_mem_tag : ' ' ∉ pin.tag := Commands.not_mem_of_validTag hpin.tag (by decide)

theorem at_not_mem_tag : '@' ∉ pin.tag := Commands.not_mem_of_validTag hpin.tag (by decide)

theorem blank_not_mem_digest : ' ' ∉ pin.digest :=
  Commands.not_mem_of_validDigest hpin.digest (by decide) (by decide)

theorem at_not_mem_digest : '@' ∉ pin.digest :=
  Commands.not_mem_of_validDigest hpin.digest (by decide) (by decide)

end Valid

/-! ### One line -/

/-- What stands behind the colon of a repository's image line when a pin has been put in. -/
def putDigest (repo : Str) (x : Str) (pin : ImagePin) : Str :=
  if pin.repo = repo ∧ pin.tag <+: x then
    pin.tag ++ '@' :: pin.digest ++ x.drop pin.tag.length
  else x

/-- The beginning of an image line. -/
def imageHead (repo : Str) : Str := "image: ".toList ++ repo ++ ":".toList

/-- Its characters. -/
theorem imageHead_eq (repo : Str) :
    imageHead repo = 'i' :: ("mage: ".toList ++ (repo ++ [':'])) := by
  show 'i' :: ("mage: ".toList ++ repo ++ [':']) = _
  rw [List.append_assoc]

theorem imageLine_eq (repo tag : Str) : imageLine repo tag = imageHead repo ++ tag := rfl

theorem image_imageRef (repo tag digest : Str) :
    "image: ".toList ++ Commands.imageRef repo tag digest =
      imageHead repo ++ (tag ++ '@' :: digest) := by
  show "image: ".toList ++ (repo ++ ":".toList ++ tag ++ ['@'] ++ digest) =
    "image: ".toList ++ repo ++ ":".toList ++ (tag ++ '@' :: digest)
  generalize "image: ".toList = before
  generalize ":".toList = colon
  simp

theorem imageLine_ne_nil (repo tag : Str) : imageLine repo tag ≠ [] := by
  rw [imageLine_eq, imageHead_eq]
  simp

theorem blank_mem_imageLine (repo tag : Str) : ' ' ∈ imageLine repo tag := by
  rw [imageLine_eq, imageHead_eq]
  simp

/-- What an image line starts with is the line of its repository and of a tag that its own starts
with. -/
theorem imageLine_prefix_iff {repo repo' tag x : Str} (hrepo : ':' ∉ repo) (hrepo' : ':' ∉ repo') :
    imageLine repo' tag <+: imageHead repo ++ x ↔ repo' = repo ∧ tag <+: x := by
  constructor
  · intro h
    obtain ⟨rest, hrest⟩ := h
    rw [imageLine_eq, imageHead_eq, imageHead_eq] at hrest
    generalize "mage: ".toList = before at hrest
    have hbehind : repo' ++ ':' :: (tag ++ rest) = repo ++ ':' :: x := by simpa using hrest
    have hsplit := congrArg (Text.splitOnce ':') hbehind
    rw [Text.splitOnce_append_cons hrepo', Text.splitOnce_append_cons hrepo] at hsplit
    obtain ⟨hsame, hx⟩ := Prod.mk.inj (Option.some.inj hsplit)
    exact ⟨hsame, rest, hx⟩
  · rintro ⟨rfl, rest, rfl⟩
    refine ⟨rest, ?_⟩
    rw [imageLine_eq, List.append_assoc]

/-- **A pin on an image line**: it is put in when the line starts with its repository and tag. -/
theorem insertDigest_line {pin : ImagePin} {indent repo x : Str} (hpin : pin.Valid)
    (hindent : ∀ c ∈ indent, c = ' ') (hcolon : ':' ∉ repo) (hrepo : ' ' ∉ repo) (hx : ' ' ∉ x) :
    insertDigest (indent ++ (imageHead repo ++ x)) pin =
      indent ++ (imageHead repo ++ putDigest repo x pin) := by
  have hhead : 'i' ∉ indent := fun h => absurd (hindent _ h) (by decide)
  have hcolon' : ':' ∉ pin.repo := colon_not_mem_repo hpin
  have hblank := blank_mem_imageLine pin.repo pin.tag
  have hskip : ∀ {before : Str} (behind : Str), 'i' ∉ before →
      insertDigest (before ++ behind) pin = before ++ insertDigest behind pin := by
    intro before behind hbefore
    rw [insertDigest, insertDigest, imageLine_eq, imageHead_eq, List.cons_append]
    exact Text.replace_append_of_ne_head 'i' _ _ _ hbefore
  have hnone : ∀ {behind : Str}, ' ' ∉ behind → insertDigest behind pin = behind := fun h =>
    Text.replace_eq_self _ hblank h
  rw [hskip _ hhead, putDigest, List.append_cancel_left_eq]
  by_cases hhit : pin.repo = repo ∧ pin.tag <+: x
  · obtain ⟨rfl, rest, rfl⟩ := hhit
    have hrest : ' ' ∉ rest := fun h => hx (List.mem_append_right _ h)
    rw [if_pos ⟨rfl, List.prefix_append _ _⟩, ← List.append_assoc, ← imageLine_eq, insertDigest,
      Text.replace_pattern_append _ _ (imageLine_ne_nil _ _), Text.replace_eq_self _ hblank hrest,
      List.drop_left, image_imageRef, List.append_assoc]
  · -- no match at the front, and behind it there is no `i` before the last blank
    have hfront : ¬ imageLine pin.repo pin.tag <+: imageHead repo ++ x := fun h =>
      hhit ((imageLine_prefix_iff hcolon hcolon').mp h)
    have hsplit : imageHead repo ++ x = 'i' :: ("mage: ".toList ++ (repo ++ ':' :: x)) := by
      rw [imageHead_eq]
      generalize "mage: ".toList = before
      simp
    rw [if_neg hhit]
    rw [hsplit] at hfront ⊢
    rw [insertDigest, Text.replace_cons_of_no_match _ (imageLine_ne_nil _ _) hfront]
    show 'i' :: insertDigest ("mage: ".toList ++ (repo ++ ':' :: x)) pin = _
    rw [hskip _ (by decide), hnone (by simp [hrepo, hx])]

/-- **All pins on an image line**. -/
theorem foldl_insertDigest_line {pins : List ImagePin} {indent repo x : Str}
    (hpins : ∀ pin ∈ pins, pin.Valid) (hindent : ∀ c ∈ indent, c = ' ') (hcolon : ':' ∉ repo)
    (hrepo : ' ' ∉ repo) (hx : ' ' ∉ x) :
    pins.foldl insertDigest (indent ++ (imageHead repo ++ x)) =
      indent ++ (imageHead repo ++ pins.foldl (putDigest repo) x) := by
  induction pins generalizing x with
  | nil => rfl
  | cons pin pins ih =>
    obtain ⟨hpin, hpins⟩ := List.forall_mem_cons.mp hpins
    rw [List.foldl_cons, List.foldl_cons, insertDigest_line hpin hindent hcolon hrepo hx]
    refine ih hpins ?_
    rw [putDigest]
    split_ifs with hhit
    · have htag : ' ' ∉ pin.tag := blank_not_mem_tag hpin
      have hdigest : ' ' ∉ pin.digest := blank_not_mem_digest hpin
      have hdrop : ' ' ∉ x.drop pin.tag.length := fun h => hx (List.mem_of_mem_drop h)
      simp [htag, hdigest, hdrop]
    · exact hx

/-! ### When a line is right -/

/-- A pin is put in here. -/
def Hits (repo x : Str) (pin : ImagePin) : Prop := pin.repo = repo ∧ pin.tag <+: x

theorem putDigest_of_not_hits {repo x : Str} {pin : ImagePin} (h : ¬ Hits repo x pin) :
    putDigest repo x pin = x := if_neg h

theorem putDigest_of_hits {pin : ImagePin} {rest : Str} :
    putDigest pin.repo (pin.tag ++ rest) pin = pin.tag ++ '@' :: pin.digest ++ rest := by
  rw [putDigest, if_pos ⟨rfl, List.prefix_append _ _⟩, List.drop_left]

instance decidableHits (repo x : Str) (pin : ImagePin) : Decidable (Hits repo x pin) :=
  inferInstanceAs (Decidable (_ ∧ _))

theorem count_putDigest (repo x : Str) {pin : ImagePin} (hpin : pin.Valid) :
    (putDigest repo x pin).count '@' = x.count '@' + if Hits repo x pin then 1 else 0 := by
  by_cases hhit : Hits repo x pin
  · obtain ⟨rfl, rest, rfl⟩ := hhit
    have htag : '@' ∉ pin.tag := at_not_mem_tag hpin
    have hdigest : '@' ∉ pin.digest := at_not_mem_digest hpin
    rw [putDigest_of_hits, if_pos ⟨rfl, List.prefix_append _ _⟩]
    simp [List.count_eq_zero_of_not_mem htag, List.count_eq_zero_of_not_mem hdigest]
  · rw [putDigest_of_not_hits hhit, if_neg hhit]
    rfl

theorem le_count_foldl_putDigest (repo x : Str) {pins : List ImagePin}
    (hpins : ∀ pin ∈ pins, pin.Valid) :
    x.count '@' ≤ (pins.foldl (putDigest repo) x).count '@' := by
  induction pins generalizing x with
  | nil => exact le_rfl
  | cons pin pins ih =>
    obtain ⟨hpin, hpins⟩ := List.forall_mem_cons.mp hpins
    rw [List.foldl_cons]
    have hstep := count_putDigest repo x hpin
    exact le_trans (by rw [hstep]; exact Nat.le_add_right _ _) (ih _ hpins)

/-- A line that has its digest keeps it exactly when no further pin is put in. -/
theorem foldl_putDigest_eq_iff_of_count {repo x y : Str} {pins : List ImagePin}
    (hpins : ∀ pin ∈ pins, pin.Valid) (hcount : y.count '@' = x.count '@') :
    pins.foldl (putDigest repo) x = y ↔ x = y ∧ ∀ pin ∈ pins, ¬ Hits repo x pin := by
  induction pins generalizing x with
  | nil => simp
  | cons pin pins ih =>
    obtain ⟨hpin, hpins⟩ := List.forall_mem_cons.mp hpins
    rw [List.foldl_cons, List.forall_mem_cons]
    by_cases hhit : Hits repo x pin
    · -- a second `@` never goes away
      have hmore := le_count_foldl_putDigest repo (putDigest repo x pin) hpins
      rw [count_putDigest repo x hpin, if_pos hhit] at hmore
      constructor
      · rintro rfl
        omega
      · exact fun h => absurd hhit h.2.1
    · rw [putDigest_of_not_hits hhit, ih hpins hcount]
      simp [hhit]

theorem hits_pinned_iff {repo tag digest : Str} {pin : ImagePin} (hpin : pin.Valid) :
    Hits repo (tag ++ '@' :: digest) pin ↔ Hits repo tag pin := by
  have htag : '@' ∉ pin.tag := at_not_mem_tag hpin
  constructor
  · exact fun h => ⟨h.1, Text.prefix_of_prefix_append_cons htag h.2⟩
  · exact fun h => ⟨h.1, h.2.trans (List.prefix_append _ _)⟩

/-- A pin that is put in makes the line right when it is the one that was meant and nothing
follows. -/
theorem putDigest_eq_iff {pin p : ImagePin} {rest : Str} (hpin : pin.Valid) (hp : p.Valid) :
    pin.tag ++ '@' :: pin.digest ++ rest = p.tag ++ '@' :: p.digest ↔
      rest = [] ∧ pin.tag = p.tag ∧ pin.digest = p.digest := by
  have htag : '@' ∉ pin.tag := at_not_mem_tag hpin
  have htag' : '@' ∉ p.tag := at_not_mem_tag hp
  constructor
  · intro h
    rw [List.append_assoc, List.cons_append] at h
    have hsplit := congrArg (Text.splitOnce '@') h
    rw [Text.splitOnce_append_cons htag, Text.splitOnce_append_cons htag'] at hsplit
    obtain ⟨hsame, hdigest⟩ := Prod.mk.inj (Option.some.inj hsplit)
    have hrest := Commands.eq_of_digest_append hpin.digest hp.digest hdigest
    rw [hrest, List.append_nil] at hdigest
    exact ⟨hrest, hsame, hdigest⟩
  · rintro ⟨rfl, hsame, hdigest⟩
    rw [List.append_nil, hsame, hdigest]

/-- What the renderer tells pins apart by. -/
def ImagePin.key (pin : ImagePin) : Str × Str × Str := (pin.repo, pin.tag, pin.digest)

/-- The pins of a repository whose tag the tag of `p` starts with are pinned as `p` is. -/
def OneDigest (repo : Str) (pins : List ImagePin) (p : ImagePin) : Prop :=
  ∀ q ∈ pins, Hits repo p.tag q → q.tag = p.tag ∧ q.digest = p.digest

theorem foldl_putDigest_eq_iff {t : Str} {p : ImagePin} {pins : List ImagePin}
    (hpins : ∀ pin ∈ pins, pin.Valid) (hp : p.Valid) (ht : '@' ∉ t)
    (hnodup : (pins.map ImagePin.key).Nodup) :
    pins.foldl (putDigest p.repo) t = p.tag ++ '@' :: p.digest ↔
      t = p.tag ∧ p.key ∈ pins.map ImagePin.key ∧ OneDigest p.repo pins p := by
  have htag : '@' ∉ p.tag := at_not_mem_tag hp
  have hdigest : '@' ∉ p.digest := at_not_mem_digest hp
  induction pins with
  | nil =>
    constructor
    · rintro rfl
      simp at ht
    · exact fun h => absurd h.2.1 List.not_mem_nil
  | cons q pins ih =>
    obtain ⟨hq, hpins⟩ := List.forall_mem_cons.mp hpins
    rw [List.map_cons, List.nodup_cons] at hnodup
    obtain ⟨hfirst, hnodup⟩ := hnodup
    rw [List.foldl_cons, List.map_cons, OneDigest, List.forall_mem_cons]
    by_cases hhit : Hits p.repo t q
    · obtain ⟨hrepo, rest, rfl⟩ := hhit
      have hcount : (p.tag ++ '@' :: p.digest).count '@' =
          (q.tag ++ '@' :: q.digest ++ rest).count '@' := by
        have hstep := count_putDigest q.repo (q.tag ++ rest) hq
        rw [putDigest_of_hits, if_pos ⟨rfl, List.prefix_append _ _⟩,
          List.count_eq_zero_of_not_mem ht] at hstep
        rw [hstep]
        simp [List.count_eq_zero_of_not_mem htag, List.count_eq_zero_of_not_mem hdigest]
      rw [← hrepo, putDigest_of_hits, foldl_putDigest_eq_iff_of_count hpins hcount]
      constructor
      · rintro ⟨heq, hnone⟩
        obtain ⟨rfl, hsame, hd⟩ := (putDigest_eq_iff hq hp).mp heq
        rw [heq] at hnone
        refine ⟨by rw [List.append_nil, hsame], ?_, fun _ => ⟨hsame, hd⟩, fun q' hq' hhits => ?_⟩
        · rw [ImagePin.key, ImagePin.key, hrepo, hsame, hd]
          exact List.mem_cons_self
        · exact absurd ((hits_pinned_iff (hpins q' hq')).mpr hhits) (hnone q' hq')
      · rintro ⟨heq, -, hsame, hall⟩
        have hstarts : q.tag <+: p.tag := heq ▸ List.prefix_append _ _
        obtain ⟨htags, hd⟩ := hsame ⟨rfl, hstarts⟩
        have hrest : rest = [] := by
          rw [htags] at heq
          simpa using heq
        have hright := (putDigest_eq_iff hq hp).mpr ⟨hrest, htags, hd⟩
        refine ⟨hright, fun q' hq' hhits => ?_⟩
        rw [hright, hits_pinned_iff (hpins q' hq')] at hhits
        -- it would have the key of the first
        obtain ⟨htags', hd'⟩ := hall q' hq' hhits
        refine hfirst (List.mem_map.mpr ⟨q', hq', ?_⟩)
        rw [ImagePin.key, ImagePin.key, hhits.1, htags', hd', htags, hd]
    · rw [putDigest_of_not_hits hhit]
      refine (ih hpins hnodup).trans ?_
      constructor
      · rintro ⟨rfl, hmem, hall⟩
        exact ⟨rfl, List.mem_cons_of_mem _ hmem, fun h => absurd h hhit, hall⟩
      · rintro ⟨rfl, hmem, -, hall⟩
        refine ⟨rfl, (List.mem_cons.mp hmem).resolve_left fun hkey => hhit ?_, hall⟩
        rw [ImagePin.key, ImagePin.key, Prod.mk.injEq, Prod.mk.injEq] at hkey
        exact ⟨hkey.1.symm, hkey.2.1 ▸ List.prefix_rfl⟩

/-! ### The pins that are looked at -/

theorem mem_of_mem_freshPins {seen : List (Str × Str × Str)} {pins : List ImagePin} {q : ImagePin}
    (h : q ∈ freshPins seen pins) : q ∈ pins := by
  induction pins generalizing seen with
  | nil => exact h
  | cons pin pins ih =>
    rw [freshPins] at h
    split_ifs at h with hseen
    · exact List.mem_cons_of_mem _ (ih h)
    · rcases List.mem_cons.mp h with rfl | h
      · exact List.mem_cons_self
      · exact List.mem_cons_of_mem _ (ih h)

theorem key_freshPins_not_seen {seen : List (Str × Str × Str)} {pins : List ImagePin}
    {q : ImagePin} (h : q ∈ freshPins seen pins) : q.key ∉ seen := by
  induction pins generalizing seen with
  | nil => exact absurd h List.not_mem_nil
  | cons pin pins ih =>
    rw [freshPins] at h
    split_ifs at h with hseen
    · exact ih h
    · rcases List.mem_cons.mp h with rfl | h
      · exact hseen
      · exact fun hmem => ih h (List.mem_cons_of_mem _ hmem)

/-- Their keys differ. -/
theorem nodup_freshPins (seen : List (Str × Str × Str)) (pins : List ImagePin) :
    ((freshPins seen pins).map ImagePin.key).Nodup := by
  induction pins generalizing seen with
  | nil => exact List.nodup_nil
  | cons pin pins ih =>
    rw [freshPins]
    split_ifs with hseen
    · exact ih seen
    · rw [List.map_cons, List.nodup_cons]
      refine ⟨fun hmem => ?_, ih _⟩
      obtain ⟨q, hq, hkey⟩ := List.mem_map.mp hmem
      refine key_freshPins_not_seen hq ?_
      rw [hkey]
      exact List.mem_cons_self

/-- And no key is left out. -/
theorem key_mem_freshPins (seen : List (Str × Str × Str)) {pins : List ImagePin} {p : ImagePin}
    (h : p ∈ pins) : p.key ∈ seen ∨ p.key ∈ (freshPins seen pins).map ImagePin.key := by
  induction pins generalizing seen with
  | nil => exact absurd h List.not_mem_nil
  | cons pin pins ih =>
    rw [freshPins]
    rcases List.mem_cons.mp h with rfl | h
    · split_ifs with hseen
      · exact .inl hseen
      · exact .inr List.mem_cons_self
    · split_ifs with hseen
      · exact ih seen h
      · rcases ih (pin.key :: seen) h with hkey | hkey
        · rcases List.mem_cons.mp hkey with heq | hkey
          · rw [heq]
            exact .inr List.mem_cons_self
          · exact .inl hkey
        · exact .inr (List.mem_cons_of_mem _ hkey)

/-- The pins that are looked at have one digest when all have. -/
theorem oneDigest_freshPins {pins : List ImagePin} {p : ImagePin} :
    OneDigest p.repo (freshPins [] pins) p ↔ OneDigest p.repo pins p := by
  constructor
  · intro h q hq hhits
    have hkey := (key_mem_freshPins [] hq).resolve_left List.not_mem_nil
    obtain ⟨q', hq', heq⟩ := List.mem_map.mp hkey
    rw [ImagePin.key, ImagePin.key, Prod.mk.injEq, Prod.mk.injEq] at heq
    obtain ⟨hrepo, htag, hdigest⟩ := heq
    rw [← htag, ← hdigest]
    exact h q' hq' ⟨hrepo.trans hhits.1, htag ▸ hhits.2⟩
  · exact fun h q hq => h q (mem_of_mem_freshPins hq)

/-- **When an image line is right**: the template has the tag that is pinned, and no other pin goes
in. -/
theorem line_pinned_iff {pins : List ImagePin} {p : ImagePin} {indent t : Str}
    (hpins : ∀ pin ∈ pins, pin.Valid) (hp : p ∈ pins) (hindent : ∀ c ∈ indent, c = ' ')
    (ht : Commands.validateTag t = .ok t) :
    (freshPins [] pins).foldl insertDigest (indent ++ imageLine p.repo t) =
        indent ++ ("image: ".toList ++ Commands.imageRef p.repo p.tag p.digest) ↔
      t = p.tag ∧ OneDigest p.repo pins p := by
  have hvalid := hpins p hp
  have hfresh : ∀ pin ∈ freshPins [] pins, pin.Valid := fun pin hpin =>
    hpins pin (mem_of_mem_freshPins hpin)
  rw [imageLine_eq, image_imageRef, foldl_insertDigest_line hfresh hindent
    (colon_not_mem_repo hvalid) (blank_not_mem_repo hvalid)
    (Commands.not_mem_of_validTag ht (by decide)), List.append_cancel_left_eq,
    List.append_cancel_left_eq, foldl_putDigest_eq_iff hfresh hvalid
    (Commands.not_mem_of_validTag ht (by decide)) (nodup_freshPins [] pins), oneDigest_freshPins]
  have hkey := (key_mem_freshPins [] hp).resolve_left List.not_mem_nil
  simp [hkey]

/-! ### The whole file -/

/-- A line of a compose template: the image of a service, or another line. -/
inductive TemplateLine where
  | image (service indent repo tag : Str)
  | other (text : Str)

/-- The text of a line. -/
def TemplateLine.text : TemplateLine → Str
  | .image _ indent repo tag => indent ++ imageLine repo tag
  | .other text => text

/-- A compose template for pinned services, each with its repository. -/
structure TemplateOf (template : Str) (lines : List TemplateLine) (pinned : List (Str × Str)) :
    Prop where
  /-- These are its lines. -/
  split : template.splitOn '\n' = lines.map TemplateLine.text
  /-- An image line has blanks before it, has a tag, and is that of a pinned service. -/
  image : ∀ service indent repo tag, .image service indent repo tag ∈ lines →
    (∀ c ∈ indent, c = ' ') ∧ Commands.validateTag tag = .ok tag ∧ (service, repo) ∈ pinned ∧
      ∀ repo', (service, repo') ∈ pinned → repo' = repo
  /-- Every pinned service has one. -/
  service : ∀ service repo, (service, repo) ∈ pinned →
    ∃ indent tag, .image service indent repo tag ∈ lines
  /-- No other line is an image line of a pinned repository. -/
  other : ∀ text, .other text ∈ lines → ∀ service repo, (service, repo) ∈ pinned →
    ¬ imageHead repo <:+: text

/-- A service with its pinned repository. -/
def ImagePin.serviceRepo (pin : ImagePin) : Str × Str := (pin.service, pin.repo)

/-- The line of a pin. -/
def ImagePin.line (indent : Str) (pin : ImagePin) : Str :=
  indent ++ ("image: ".toList ++ Commands.imageRef pin.repo pin.tag pin.digest)

/-- **The compose file and the pins agree.** -/
structure Agrees (lines : List TemplateLine) (text : Str) (pins : List ImagePin) : Prop where
  /-- An image line of a pinned repository has the digest of a pin. -/
  pinned : ∀ line ∈ text.splitOn '\n', ∀ pin ∈ pins, imageHead pin.repo <:+: line →
    ∃ p ∈ pins, ∃ indent, line = p.line indent
  /-- The line of a service is what is recorded for it. -/
  services : ∀ (i : Nat) service indent repo tag,
    lines[i]? = some (TemplateLine.image service indent repo tag) →
      ∀ pin ∈ pins, pin.service = service → (text.splitOn '\n')[i]? = some (pin.line indent)

/-- The template has the tags that are pinned, and none of them starts with another tag that is
pinned for its repository. -/
def Matches (lines : List TemplateLine) (pins : List ImagePin) : Prop :=
  ∀ service indent repo tag, .image service indent repo tag ∈ lines →
    ∀ pin ∈ pins, pin.service = service → tag = pin.tag ∧ OneDigest repo pins pin

theorem newline_not_mem_imageLine {pin : ImagePin} (hpin : pin.Valid) :
    '\n' ∉ imageLine pin.repo pin.tag := by
  have hrepo : '\n' ∉ pin.repo := Commands.not_mem_of_validRepo hpin.repo (by decide)
  have htag : '\n' ∉ pin.tag := Commands.not_mem_of_validTag hpin.tag (by decide)
  rw [imageLine_eq, imageHead_eq]
  simp [hrepo, htag]

theorem newline_not_mem_imageRef {pin : ImagePin} (hpin : pin.Valid) :
    '\n' ∉ "image: ".toList ++ Commands.imageRef pin.repo pin.tag pin.digest := by
  have hrepo : '\n' ∉ pin.repo := Commands.not_mem_of_validRepo hpin.repo (by decide)
  have htag : '\n' ∉ pin.tag := Commands.not_mem_of_validTag hpin.tag (by decide)
  have hdigest : '\n' ∉ pin.digest :=
    Commands.not_mem_of_validDigest hpin.digest (by decide) (by decide)
  rw [image_imageRef, imageHead_eq]
  simp [hrepo, htag, hdigest]

/-- The pins go into each line on its own. -/
theorem splitOn_foldl_insertDigest {pins : List ImagePin} (hpins : ∀ pin ∈ pins, pin.Valid)
    (s : Str) : (pins.foldl insertDigest s).splitOn '\n' =
      (s.splitOn '\n').map fun line => pins.foldl insertDigest line := by
  induction pins generalizing s with
  | nil => simp
  | cons pin pins ih =>
    obtain ⟨hpin, hpins⟩ := List.forall_mem_cons.mp hpins
    have hstep : (insertDigest s pin).splitOn '\n' =
        (s.splitOn '\n').map fun line => insertDigest line pin :=
      Text.splitOn_replace (imageLine_ne_nil _ _) (newline_not_mem_imageLine hpin)
        (newline_not_mem_imageRef hpin) s
    simp only [List.foldl_cons]
    rw [ih hpins, hstep, List.map_map]
    rfl

/-- They leave a text alone in which nothing is found. -/
theorem foldl_insertDigest_of_absent {pins : List ImagePin} {s : Str}
    (h : ∀ pin ∈ pins, ¬ imageLine pin.repo pin.tag <:+: s) : pins.foldl insertDigest s = s := by
  induction pins with
  | nil => rfl
  | cons pin pins ih =>
    obtain ⟨hpin, hpins⟩ := List.forall_mem_cons.mp h
    rw [List.foldl_cons, insertDigest, Text.replace_of_absent _ (imageLine_ne_nil _ _) hpin,
      ih hpins]

/-- So they do with a line that is no image line of theirs. -/
theorem foldl_insertDigest_other {pins : List ImagePin} {s : Str}
    (h : ∀ pin ∈ pins, ¬ imageHead pin.repo <:+: s) : pins.foldl insertDigest s = s := by
  apply foldl_insertDigest_of_absent
  intro pin hpin hoccurs
  rw [imageLine_eq] at hoccurs
  exact h pin hpin ((List.prefix_append _ _).isInfix.trans hoccurs)

/-- **When the rendered file and the pins agree.** -/
theorem agrees_iff {template text : Str} {lines : List TemplateLine} {pins : List ImagePin}
    (hrender : renderComposeWithPins template pins = .ok text)
    (htemplate : TemplateOf template lines (pins.map ImagePin.serviceRepo)) :
    Agrees lines text pins ↔ Matches lines pins := by
  obtain ⟨hvalid, rfl⟩ := renderComposeWithPins_eq_ok_iff.mp hrender
  have hfresh : ∀ pin ∈ freshPins [] pins, pin.Valid := fun pin hpin =>
    hvalid pin (mem_of_mem_freshPins hpin)
  have hlines : ((freshPins [] pins).foldl insertDigest template).splitOn '\n' =
      lines.map fun line => (freshPins [] pins).foldl insertDigest line.text := by
    rw [splitOn_foldl_insertDigest hfresh, htemplate.split, List.map_map]
    rfl
  have hright : ∀ {service indent repo tag}, .image service indent repo tag ∈ lines →
      ∀ pin ∈ pins, pin.service = service →
        ((freshPins [] pins).foldl insertDigest (indent ++ imageLine repo tag) = pin.line indent ↔
          tag = pin.tag ∧ OneDigest repo pins pin) := by
    rintro _ indent repo tag hline pin hpin rfl
    obtain ⟨hindent, htag, -, hrepo⟩ := htemplate.image _ _ _ _ hline
    obtain rfl := hrepo pin.repo (List.mem_map_of_mem hpin)
    exact line_pinned_iff hvalid hpin hindent htag
  constructor
  · intro hagrees service indent repo tag hline pin hpin hservice
    obtain ⟨i, hi⟩ := List.mem_iff_getElem?.mp hline
    have hsome := hagrees.services i service indent repo tag hi pin hpin hservice
    rw [hlines, List.getElem?_map, hi, Option.map_some, Option.some.injEq] at hsome
    exact (hright hline pin hpin hservice).mp hsome
  · intro hmatches
    have hservice : ∀ {service indent repo tag}, .image service indent repo tag ∈ lines →
        ∀ pin ∈ pins, pin.service = service →
          (freshPins [] pins).foldl insertDigest (indent ++ imageLine repo tag) = pin.line indent :=
      fun hline pin hpin hservice =>
        (hright hline pin hpin hservice).mpr (hmatches _ _ _ _ hline pin hpin hservice)
    constructor
    · intro line hline pin hpin hhead
      rw [hlines] at hline
      obtain ⟨l, hl, rfl⟩ := List.mem_map.mp hline
      cases l with
      | image service indent repo tag =>
        obtain ⟨-, -, hmem, -⟩ := htemplate.image _ _ _ _ hl
        obtain ⟨p, hp, heq⟩ := List.mem_map.mp hmem
        exact ⟨p, hp, indent, hservice hl p hp (congrArg Prod.fst heq)⟩
      | other text =>
        have hnone : ∀ p ∈ pins, ¬ imageHead p.repo <:+: text := fun p hp =>
          htemplate.other text hl p.service p.repo (List.mem_map_of_mem hp)
        simp only [TemplateLine.text] at hhead
        rw [foldl_insertDigest_other fun p hp => hnone p (mem_of_mem_freshPins hp)] at hhead
        exact absurd hhead (hnone pin hpin)
    · intro i service indent repo tag hi pin hpin heq
      rw [hlines, List.getElem?_map, hi, Option.map_some, Option.some.injEq]
      exact hservice (List.mem_of_getElem? hi) pin hpin heq

end Rustmote
