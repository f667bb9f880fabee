/-!
Powers of whole numbers: those of the core library, whatever algebra of powers is
imported beside it.
-/

attribute [instance (2000), default_instance 20000] instPowNat
