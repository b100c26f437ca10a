import Hsp.Distribution.Records
import Hsp.Path.Segments

/-!
# The names of buckets and keys

The distribution service canonicalizes the names of buckets and keys, and the `AlphaService` takes
the results for namespaces and paths and canonicalizes them again.  The second pass decodes what the
first one has decoded.

* `names_stable_iff` : the second pass changes nothing exactly if the names are plain: ASCII, and
  without a percent sign.
-/

namespace Hsp.Distribution

theorem canonicalBucketName_segment {bucket name : String}
    (h : canonicalBucketName bucket = .ok name) :
    canonicalPath bucket = .ok name ∧ '/' ∉ name.toList := by
  unfold canonicalBucketName at h
  split at h
  · cases h
  · split at h
    · cases h
    · rename_i hcanon
      split at h
      · cases h
      · rename_i hslash
        cases h
        exact ⟨hcanon, fun hmem => hslash (.inr hmem)⟩

theorem canonicalObjectKeyName_ok {key name : String}
    (h : canonicalObjectKeyName key = .ok name) : canonicalPath key = .ok name := by
  unfold canonicalObjectKeyName at h
  split at h
  · cases h
  · rename_i hcanon
    cases h
    exact hcanon

theorem canonicalNamespaceAndPath_self {ns path : String} :
    canonicalNamespaceAndPath ns path = .ok (ns, path) ↔
      canonicalPath ns = .ok ns ∧ canonicalPath path = .ok path := by
  unfold canonicalNamespaceAndPath
  cases canonicalPath ns with
  | error e => simp
  | ok ns' =>
    cases canonicalPath path with
    | error e => simp
    | ok path' => simp

/-- **Canonical names are fixed points** exactly if they are plain, and so a key of a bucket is at
the same place for both services exactly if both names are. -/
theorem names_stable_iff {s c bucket name key path : String} (hs : canonicalPath s = .ok c)
    (hbucket : canonicalBucketName bucket = .ok name)
    (hkey : canonicalObjectKeyName key = .ok path) :
    (canonicalPath c = .ok c ↔ Plain c) ∧
      (canonicalNamespaceAndPath name path = .ok (name, path) ↔ Plain name ∧ Plain path) := by
  refine ⟨canonicalPath_self_iff hs, ?_⟩
  rw [canonicalNamespaceAndPath_self,
    canonicalPath_self_iff (canonicalBucketName_segment hbucket).1,
    canonicalPath_self_iff (canonicalObjectKeyName_ok hkey)]

theorem names_stable_plain :
    canonicalPath "a%2Fb" = .ok "a/b" ∧ canonicalPath "a/b" = .ok "a/b" ∧
      canonicalNamespaceAndPath "b" "a/b" = .ok ("b", "a/b") := by
  have hs : canonicalPath "a%2Fb" = .ok "a/b" := by decide +kernel
  have hstable := names_stable_iff hs (show canonicalBucketName "b" = .ok "b" by decide +kernel)
    (show canonicalObjectKeyName "a%2Fb" = .ok "a/b" by decide +kernel)
  exact ⟨hs, hstable.1.2 (by decide +kernel), hstable.2.2 ⟨by decide +kernel, by decide +kernel⟩⟩

/-- A letter with an accent is read as two characters and then as four, and a percent sign cannot be
decoded a second time. -/
theorem names_unstable :
    (canonicalPath "é" = .ok "Ã©" ∧ canonicalPath "Ã©" = .ok "Ã\u0083Â©") ∧
      (canonicalObjectKeyName "100%25" = .ok "100%" ∧
        canonicalNamespaceAndPath "b" "100%" =
          .error ⟨.validation, "invalid_path", "invalid percent encoding"⟩) := by
  decide +kernel

end Hsp.Distribution
