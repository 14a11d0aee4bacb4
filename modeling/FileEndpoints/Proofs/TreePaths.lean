import FileEndpoints.Endpoint.Eager

namespace FileEndpoints

namespace Tree

variable {φ : Type} [TreeFile φ] {t : Tree φ} {path : String} {f : φ}

theorem path_of_find? (h : t.find? path = some f) : path = "/" ++ TreeFile.name f := by
  obtain ⟨name, hname, hfind⟩ := Option.bind_eq_some_iff.1 h
  have hn : TreeFile.name f = name := beq_iff_eq.1 (List.find?_some hfind :)
  simp only [nameOf?] at hname
  split at hname
  · rename_i chars hchars
    rw [hn, ← Option.some.inj hname, ← String.toList_inj, hchars, String.toList_append,
      String.toList_ofList (l := chars)]
    rfl
  · cases hname

theorem path_of_writable (h : t.writable path = .ok f) :
    path = "/" ++ TreeFile.name f ∧ (TreeFile.access f).writable = true := by
  simp only [writable] at h
  cases hf : t.find? path with
  | none =>
    rw [hf] at h
    cases h
  | some g =>
    simp only [hf] at h
    split at h
    · rename_i hw
      obtain rfl := Except.ok.inj h
      exact ⟨path_of_find? hf, hw⟩
    · cases h

theorem path_of_readable (h : t.readable path = .ok f) :
    path = "/" ++ TreeFile.name f ∧ (TreeFile.access f).readable = true := by
  simp only [readable] at h
  cases hf : t.find? path with
  | none =>
    rw [hf] at h
    cases h
  | some g =>
    simp only [hf] at h
    split at h
    · rename_i hr
      obtain rfl := Except.ok.inj h
      exact ⟨path_of_find? hf, hr⟩
    · cases h

end Tree

theorem EagerProfile.writable_eq (p : EagerProfile) (path : String) :
    p.tree.writable path =
      if path = "/request" then .ok .request
      else if path = "/response.json" ∨ path = "/response.txt" then .error (.notWritable path)
      else .error (.noSuchPath path) := by
  by_cases hreq : path = "/request"
  · subst hreq
    rfl
  · by_cases hresp : path = "/response.json" ∨ path = "/response.txt"
    · rw [if_neg hreq, if_pos hresp]
      rcases hresp with rfl | rfl <;> rfl
    · rw [if_neg hreq, if_neg hresp]
      have hnone : p.tree.find? path = none := by
        cases hf : p.tree.find? path with
        | none => rfl
        | some f =>
          have hpath := Tree.path_of_find? hf
          cases f with
          | request => exact absurd hpath hreq
          | responseJson => exact absurd (.inl hpath) hresp
          | responseTxt => exact absurd (.inr hpath) hresp
      simp only [Tree.writable, hnone]

end FileEndpoints
