import LibAdb.Machine.CloseAll

namespace Looper

variable {s : Looper} {t : Tid}

-- The loop of `close_all_sockets` ends after as many rounds as there are sockets in the list. It
-- closes the sockets of the transport and leaves all others alone.
theorem closeAllSockets_exact (h : Reachable (fun _ _ => True) s) :
    (∀ n, s.localSocketList.length ≤ n → closeSockets t n s = s.closeAllSockets t) ∧
    (∀ r ∈ (s.closeAllSockets t).localSocketList, (s.closeAllSockets t).belongs t r = false) ∧
    ∀ r, s.belongs t r = false →
      (s.closeAllSockets t).sock r = s.sock r ∧ s.SameLists (s.closeAllSockets t) r := by
  refine ⟨fun n hn => ?_, ?_, fun r hr => ?_⟩
  · exact closeSockets_eq h.wf hn (Nat.le_refl _)
  · exact closeSockets_complete h.wf (Nat.le_refl _)
  · exact closeSockets_frame h.wf hr

-- Of two streams to two devices, one is closed.
theorem closeAllSockets_exact_of_two : ∃ s : Looper,
    s.localSocketList = [0, 2] ∧ s.belongs 0 0 ∧ s.belongs 1 2 ∧
    (∀ n, 2 ≤ n → closeSockets 0 n s = s.closeAllSockets 0) ∧
    (s.closeAllSockets 0).localSocketList = [2] ∧
    (s.closeAllSockets 0).sock 2 = s.sock 2 := by
  have ⟨s, hs, list, b₀, b₂, unrelated, left⟩ : ∃ s, Reachable (fun _ _ => True) s ∧
      s.localSocketList = [0, 2] ∧ s.belongs 0 0 ∧ s.belongs 1 2 ∧ s.belongs 0 2 = false ∧
      (s.closeAllSockets 0).localSocketList = [2] :=
    Reach.exists_of_exec [.packet 0 .connect {}, .packet 1 .connect {},
      .openService 0 (ascii "shell:"), .packet 0 (.ofCommand .okay 9 1 [] (by decide)) {},
      .openService 1 (ascii "shell:")] (by decide +kernel)
  have ⟨ends, _, frame⟩ := closeAllSockets_exact (t := 0) hs
  exact ⟨s, list, b₀, b₂, fun n hn => ends n (by simpa [list] using hn), left,
    (frame 2 unrelated).left⟩

end Looper
